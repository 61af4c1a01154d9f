import Neonfi.Lib.Rotation
import Neonfi.Sessions.Steps

/-!
# Refresh tokens are exchanged once

The sessions refine a rotation of fresh values: a live session is an open cell that holds the
hash of its token, a successful conditional update swaps it, a revocation closes the cell.
-/

namespace Neonfi.Sessions

open Lib
open Ledger (Millis)

/-! ## The rotation behind the sessions -/

/-- The hash a request is about to swap in. -/
def Work.pending (crypto : Crypto) : Work → Option String
  | .refresh _ (.rotating _ newToken _) => some (crypto.sha256hex newToken)
  | _ => none

def State.pending (crypto : Crypto) (s : State) (id : ℕ) : Option String :=
  (s.requests id).bind (Work.pending crypto)

/-- The hash of a live session. -/
def Session.current (r : Session) : Option String :=
  if r.revokedAt.isNone then some r.refreshTokenHash else none

def State.tokens (s : State) : Rotation ℕ String where
  current k := (s.sessions.find? k).bind Session.current
  handed := s.handed.map fun h => (h.sessionId, h.hash)
  swaps := s.exchanges.map fun e => (e.sessionId, e.oldHash, e.newHash)

/-- The hashes of the tokens that a session has handed out, in order. -/
def State.handedTo (s : State) (sessionId : ℕ) : List String :=
  (s.handed.filter fun h => h.sessionId = sessionId).map Handed.hash

/-- The exchanges of the tokens of a session, in order. -/
def State.exchangesOf (s : State) (sessionId : ℕ) : List Exchange :=
  s.exchanges.filter fun e => e.sessionId = sessionId

/-- What was drawn and what was handed out, and the hashes about to be swapped in. -/
structure Kept (crypto : Crypto) (s : State) : Prop where
  drawn : ∀ h ∈ s.handed, h.hash ∈ s.drawn
  below : ∀ h ∈ s.handed, h.sessionId < s.sessions.next
  fresh : ∀ id hash, s.pending crypto id = some hash →
    hash ∈ s.drawn ∧ hash ∉ s.handed.map Handed.hash
  apart : ∀ id id' hash, s.pending crypto id = some hash → s.pending crypto id' = some hash →
    id = id'

section

variable {crypto : Crypto} {s s' : State} {act : Act} {id : ℕ} {work : Work}

theorem requests_put (id' : ℕ) : (s.put id work).requests id' =
    if id' = id then some work else s.requests id' := by
  unfold State.put
  dsimp only
  rw [Function.update_apply]

theorem requests_finish {outcome : Outcome} (id' : ℕ) : (s.finish id outcome).requests id' =
    if id' = id then none else s.requests id' := by
  unfold State.finish
  dsimp only
  rw [Function.update_apply]

theorem pending_put (id' : ℕ) : (s.put id work).pending crypto id' =
    if id' = id then work.pending crypto else s.pending crypto id' := by
  unfold State.pending
  rw [requests_put]
  split
  · rfl
  · rfl

theorem pending_finish {outcome : Outcome} (id' : ℕ) : (s.finish id outcome).pending crypto id' =
    if id' = id then none else s.pending crypto id' := by
  unfold State.pending
  rw [requests_finish]
  split
  · rfl
  · rfl

/-- Nothing was drawn or handed out, and nothing new is about to be swapped in. -/
theorem Kept.of_pending (h : Kept crypto s) (hdrawn : s'.drawn = s.drawn)
    (hhanded : s'.handed = s.handed) (hnext : s'.sessions.next = s.sessions.next)
    (hpending : ∀ id hash, s'.pending crypto id = some hash → s.pending crypto id = some hash) :
    Kept crypto s' where
  drawn := by
    rw [hdrawn, hhanded]
    exact h.drawn
  below := by
    rw [hhanded, hnext]
    exact h.below
  fresh id hash hid := by
    rw [hdrawn, hhanded]
    exact h.fresh id hash (hpending id hash hid)
  apart id id' hash hid hid' := h.apart id id' hash (hpending id hash hid) (hpending id' hash hid')

theorem pending_of_put {id' : ℕ} {hash : String} (hwork : work.pending crypto = none)
    (h : (s.put id work).pending crypto id' = some hash) : s.pending crypto id' = some hash := by
  rw [pending_put] at h
  split at h
  · rw [hwork] at h
    cases h
  · exact h

theorem pending_of_finish {outcome : Outcome} {id' : ℕ} {hash : String}
    (h : (s.finish id outcome).pending crypto id' = some hash) :
    s.pending crypto id' = some hash ∧ id' ≠ id := by
  rw [pending_finish] at h
  split at h
  · cases h
  · next hne => exact ⟨h, hne⟩

theorem Reads.pending_eq {work work' : Work} (h : Reads crypto s work work') :
    work'.pending crypto = none := by
  cases h <;> rfl

theorem isNew_pending (h : work.isNew) : work.pending crypto = none := by
  cases work with
  | refresh token phase =>
      obtain rfl := of_decide_eq_true h
      rfl
  | _ => rfl

/-- Every step keeps what was drawn apart from what is handed out. -/
theorem Kept.step (h : Kept crypto s) (hfresh : Fresh crypto s act)
    (hstep : Effect crypto s act s') :
    Kept crypto s' := by
  cases hstep with
  | elapse => exact h.of_pending rfl rfl rfl fun _ _ hid => hid
  | issue => exact h.of_pending rfl rfl rfl fun _ _ hid => hid
  | request hnew => exact h.of_pending rfl rfl rfl fun _ _ => pending_of_put (isNew_pending hnew)
  | refuse => exact h.of_pending rfl rfl rfl fun _ _ hid => (pending_of_finish hid).1
  | reads _ hreads => exact h.of_pending rfl rfl rfl fun _ _ => pending_of_put hreads.pending_eq
  | quits => exact h.of_pending rfl rfl rfl fun _ _ hid => (pending_of_finish hid).1
  | takes => exact h.of_pending rfl rfl rfl fun _ _ => pending_of_put rfl
  | denies => exact h.of_pending rfl rfl rfl fun _ _ hid => (pending_of_finish hid).1
  | @draws id raw token session hwork =>
      have hraw : crypto.sha256hex raw ∉ s.drawn := hfresh
      refine ⟨?_, h.below, ?_, ?_⟩
      · intro e he
        exact List.mem_append_left _ (h.drawn e he)
      · intro id' hash hid
        rw [pending_put] at hid
        split at hid
        · cases hid
          refine ⟨List.mem_append_right _ (List.mem_singleton_self _), fun hmem => ?_⟩
          obtain ⟨e, he, heq⟩ := List.mem_map.mp hmem
          exact hraw (heq ▸ h.drawn e he)
        · obtain ⟨hdrawn, hhanded⟩ := h.fresh id' hash hid
          exact ⟨List.mem_append_left _ hdrawn, hhanded⟩
      · intro i j hash hi hj
        rw [pending_put] at hi hj
        split at hi
        · next hi' =>
            split at hj
            · next hj' => rw [hi', hj']
            · cases hi
              exact absurd (h.fresh j _ hj).1 hraw
        · split at hj
          · cases hj
            exact absurd (h.fresh i _ hi).1 hraw
          · exact h.apart i j hash hi hj
  | @rotates id raw token newToken session expiresAt sessions hwork hrotates hfind hnext =>
      have hpending : s.pending crypto id = some (crypto.sha256hex newToken) := by
        unfold State.pending
        rw [hwork]
        rfl
      have hdrawn := (h.fresh id _ hpending).1
      have hsession : session.id < s.sessions.next := by
        obtain ⟨r, hr, -⟩ := Option.any_eq_true _ _ |>.mp hrotates
        obtain ⟨hmem, hid⟩ := SerialTable.find?_eq_some_iff.mp hr
        exact hid ▸ s.sessions.below r hmem
      have hold : ∀ i hash, ({ s with
            sessions
            handed := s.handed ++
              [(⟨session.id, crypto.sha256hex newToken, expiresAt⟩ : Handed)]
            exchanges := s.exchanges ++
              [(⟨id, session.id, crypto.sha256hex token, crypto.sha256hex newToken⟩ : Exchange)] }.put
              id (.refresh token (.rotated session newToken))).pending crypto i = some hash →
          s.pending crypto i = some hash ∧ i ≠ id := by
        intro i hash hi
        rw [pending_put] at hi
        split at hi
        · cases hi
        · next hne => exact ⟨hi, hne⟩
      refine ⟨?_, ?_, ?_, ?_⟩
      · intro e he
        rcases List.mem_append.mp he with he | he
        · exact h.drawn e he
        · rw [List.mem_singleton.mp he]
          exact hdrawn
      · intro e he
        show e.sessionId < sessions.next
        rw [hnext]
        rcases List.mem_append.mp he with he | he
        · exact h.below e he
        · rw [List.mem_singleton.mp he]
          exact hsession
      · intro i hash hi
        obtain ⟨hi, hne⟩ := hold i hash hi
        refine ⟨(h.fresh i hash hi).1, ?_⟩
        show hash ∉ (s.handed ++ [_]).map Handed.hash
        rw [List.map_append, List.mem_append, not_or, List.map_singleton, List.mem_singleton]
        refine ⟨(h.fresh i hash hi).2, ?_⟩
        rintro rfl
        exact hne (h.apart i id _ hi hpending)
      · intro i j hash hi hj
        exact h.apart i j hash (hold i hash hi).1 (hold j hash hj).1
  | marks => exact h.of_pending rfl rfl rfl fun _ _ hid => (pending_of_finish hid).1
  | @opens id raw work userId verified sessions hwork hopens hfind hnext =>
      have hraw : crypto.sha256hex raw ∉ s.drawn := hfresh
      refine ⟨?_, ?_, ?_, ?_⟩
      · intro e he
        rcases List.mem_append.mp he with he | he
        · exact List.mem_append_left _ (h.drawn e he)
        · rw [List.mem_singleton.mp he]
          exact List.mem_append_right _ (List.mem_singleton_self _)
      · intro e he
        show e.sessionId < sessions.next
        rw [hnext]
        rcases List.mem_append.mp he with he | he
        · exact Nat.lt_succ_of_lt (h.below e he)
        · rw [List.mem_singleton.mp he]
          exact Nat.lt_succ_self _
      · intro i hash hi
        obtain ⟨hdrawn, hhanded⟩ := h.fresh i hash (pending_of_finish hi).1
        refine ⟨List.mem_append_left _ hdrawn, ?_⟩
        show hash ∉ (s.handed ++ [_]).map Handed.hash
        rw [List.map_append, List.mem_append, not_or, List.map_singleton, List.mem_singleton]
        refine ⟨hhanded, ?_⟩
        rintro rfl
        exact hraw hdrawn
      · intro i j hash hi hj
        exact h.apart i j hash (pending_of_finish hi).1 (pending_of_finish hj).1
  | revokes => exact h.of_pending rfl rfl rfl fun _ _ hid => (pending_of_finish hid).1
  | updates => exact h.of_pending rfl rfl rfl fun _ _ => pending_of_put rfl
  | revokesAll => exact h.of_pending rfl rfl rfl fun _ _ hid => (pending_of_finish hid).1

/-! ## The refinement -/

/-- A cell of a revoked session is closed, the others stay as they are. -/
theorem current_modify {f : Session → Session} {ks : ℕ → Bool}
    (hf : ∀ k r, s.sessions.find? k = some r →
      (f r).current = if ks k then none else r.current)
    {sessions : SessionTable} (hfind : ∀ k, sessions.find? k = (s.sessions.find? k).map f) :
    { s with sessions }.tokens.current = fun k => if ks k then none else s.tokens.current k := by
  funext k
  show (sessions.find? k).bind Session.current = _
  rw [hfind]
  unfold State.tokens
  dsimp only
  cases hr : s.sessions.find? k with
  | none => simp
  | some r =>
      rw [Option.map_some, Option.bind_some, Option.bind_some]
      exact hf k r hr

theorem tokens_revoke (sessionId : ℕ) (now : Millis) :
    Rotation.Step s.tokens (.close fun k => k = sessionId)
      { s with sessions := s.sessions.revoke sessionId now }.tokens := by
  have hcurrent := @current_modify s
    (fun r => if r.id = sessionId then { r with revokedAt := some now } else r)
    (fun k => k = sessionId) (fun k r hr => by
      obtain rfl := (SerialTable.find?_eq_some_iff.mp hr).2
      by_cases h : r.id = sessionId <;> simp [h, Session.current])
    (s.sessions.revoke sessionId now) fun k => s.sessions.find?_revoke now k sessionId
  have hclose := @Rotation.Step.close ℕ String _ s.tokens fun k => k = sessionId
  rw [← hcurrent] at hclose
  exact hclose

theorem tokens_revokeAll (userId : ℕ) (now : Millis) :
    Rotation.Step s.tokens
      (.close fun k => (s.sessions.find? k).any fun r => r.userId = userId ∧ r.revokedAt = none)
      { s with sessions := s.sessions.revokeAllForUser userId now }.tokens := by
  have hcurrent := @current_modify s
    (fun r => if r.userId = userId ∧ r.revokedAt = none then { r with revokedAt := some now } else r)
    (fun k => (s.sessions.find? k).any fun r => r.userId = userId ∧ r.revokedAt = none)
    (fun k r hr => by
      rw [hr]
      by_cases h : r.userId = userId ∧ r.revokedAt = none <;> simp [h, Session.current])
    (s.sessions.revokeAllForUser userId now) fun k => s.sessions.find?_revokeAllForUser now k userId
  have hclose := @Rotation.Step.close ℕ String _ s.tokens fun k =>
    (s.sessions.find? k).any fun r => r.userId = userId ∧ r.revokedAt = none
  rw [← hcurrent] at hclose
  exact hclose

/-- The row that a rotation finds is that of a live session with the old hash. -/
theorem current_of_rotates {sessionId : ℕ} {oldHash : String}
    (h : s.sessions.rotates sessionId oldHash) : s.tokens.current sessionId = some oldHash := by
  obtain ⟨r, hr, hrow⟩ := Option.any_eq_true _ _ |>.mp h
  obtain ⟨hhash, hlive⟩ := of_decide_eq_true hrow
  show (s.sessions.find? sessionId).bind Session.current = _
  rw [hr, Option.bind_some]
  unfold Session.current
  rw [hlive, hhash]
  rfl

/-- Each step of the server is a step of the rotation. -/
theorem tokens_step (h : Kept crypto s) (hfresh : Fresh crypto s act)
    (hstep : Effect crypto s act s') : ∃ act', Rotation.Step s.tokens act' s'.tokens := by
  cases hstep with
  | elapse => exact ⟨.stay, .stay⟩
  | issue => exact ⟨.stay, .stay⟩
  | request => exact ⟨.stay, .stay⟩
  | refuse => exact ⟨.stay, .stay⟩
  | reads => exact ⟨.stay, .stay⟩
  | quits => exact ⟨.stay, .stay⟩
  | takes => exact ⟨.stay, .stay⟩
  | denies => exact ⟨.stay, .stay⟩
  | draws => exact ⟨.stay, .stay⟩
  | @rotates id raw token newToken session expiresAt sessions hwork hrotates hfind hnext =>
      have hpending : s.pending crypto id = some (crypto.sha256hex newToken) := by
        unfold State.pending
        rw [hwork]
        rfl
      have hnew : crypto.sha256hex newToken ∉ s.tokens.handed.map Prod.snd := by
        have hhanded := (h.fresh id _ hpending).2
        unfold State.tokens
        rw [List.map_map]
        exact hhanded
      have hcurrent : (fun k => (sessions.find? k).bind Session.current) =
          Function.update s.tokens.current session.id (some (crypto.sha256hex newToken)) := by
        funext k
        rw [hfind]
        by_cases hk : k = session.id
        · subst hk
          have hold := current_of_rotates hrotates
          unfold State.tokens at hold
          dsimp only at hold
          obtain ⟨r, hr, hlive⟩ := Option.bind_eq_some_iff.mp hold
          rw [Function.update_self, hr, Option.map_some, Option.bind_some,
            if_pos (SerialTable.find?_eq_some_iff.mp hr).2]
          unfold Session.current at hlive ⊢
          split at hlive
          · next hnone => exact if_pos hnone
          · cases hlive
        · rw [Function.update_of_ne hk]
          show _ = (s.sessions.find? k).bind Session.current
          cases hr : s.sessions.find? k with
          | none => rfl
          | some r =>
              have hid := (SerialTable.find?_eq_some_iff.mp hr).2
              rw [Option.map_some, if_neg (by rw [hid]; exact hk)]
      refine ⟨.swap session.id (crypto.sha256hex token) (crypto.sha256hex newToken), ?_⟩
      have hswap := Rotation.Step.swap (current_of_rotates hrotates) hnew
      rw [← hcurrent] at hswap
      unfold State.tokens at hswap ⊢
      unfold State.put
      dsimp only at hswap ⊢
      rw [List.map_append, List.map_append]
      exact hswap
  | marks => exact ⟨.stay, .stay⟩
  | @opens id raw work userId verified sessions hwork hopens hfind hnext =>
      have hraw : crypto.sha256hex raw ∉ s.drawn := hfresh
      have hk : ∀ e ∈ s.tokens.handed, e.1 ≠ s.sessions.next := by
        intro e he
        obtain ⟨handed, hmem, rfl⟩ := List.mem_map.mp he
        exact ne_of_lt (h.below handed hmem)
      have hnew : crypto.sha256hex raw ∉ s.tokens.handed.map Prod.snd := by
        unfold State.tokens
        rw [List.map_map]
        intro hmem
        obtain ⟨e, he, heq⟩ := List.mem_map.mp hmem
        exact hraw (heq ▸ h.drawn e he)
      have hcurrent : (fun k => (sessions.find? k).bind Session.current) =
          Function.update s.tokens.current s.sessions.next (some (crypto.sha256hex raw)) := by
        funext k
        rw [hfind]
        by_cases hk : k = s.sessions.next
        · subst hk
          have hnone : s.sessions.find? s.sessions.next = none := by
            cases hr : s.sessions.find? s.sessions.next with
            | none => rfl
            | some r =>
                obtain ⟨hmem, hid⟩ := SerialTable.find?_eq_some_iff.mp hr
                exact absurd (s.sessions.below r hmem) (by simp [hid])
          rw [Function.update_self, hnone, Option.none_or, if_pos rfl]
          rfl
        · rw [Function.update_of_ne hk, if_neg (Ne.symm hk), Option.or_none]
          rfl
      refine ⟨.opens s.sessions.next (crypto.sha256hex raw), ?_⟩
      have hopen := Rotation.Step.opens hk hnew
      rw [← hcurrent] at hopen
      unfold State.tokens at hopen ⊢
      unfold State.finish
      dsimp only at hopen ⊢
      rw [List.map_append]
      exact hopen
  | revokes => exact ⟨_, tokens_revoke _ _⟩
  | updates => exact ⟨.stay, .stay⟩
  | revokesAll => exact ⟨_, tokens_revokeAll _ _⟩

/-- A run of the server is a run of the rotation. -/
theorem tokens_run {acts : List Act} (hrun : Run (Guarded (Steps crypto) (Fresh crypto)) s acts s')
    (h : Kept crypto s) :
    Kept crypto s' ∧ ∃ acts', Run Rotation.Step s.tokens acts' s'.tokens := by
  induction hrun with
  | nil => exact ⟨h, [], .nil _⟩
  | cons hstep _ ih =>
      have heffect := effect_of_step hstep.1
      obtain ⟨act', hfirst⟩ := tokens_step h hstep.2 heffect
      obtain ⟨hkept, acts', hrest⟩ := ih (h.step hstep.2 heffect)
      exact ⟨hkept, act' :: acts', .cons hfirst hrest⟩

/-! ## What is answered -/

/-- The tokens of the answers, and those about to be answered, were handed out. -/
structure Answered (crypto : Crypto) (s : State) : Prop where
  answers : ∀ a ∈ s.answers, ∀ sessionId raw, a.2 = .tokens sessionId raw →
    crypto.sha256hex raw ∈ s.handedTo sessionId
  rotated : ∀ id token session raw,
    s.requests id = some (.refresh token (.rotated session raw)) →
      crypto.sha256hex raw ∈ s.handedTo session.id

theorem mem_handedTo_iff {sessionId : ℕ} {hash : String} :
    hash ∈ s.handedTo sessionId ↔ ∃ h ∈ s.handed, h.sessionId = sessionId ∧ h.hash = hash := by
  unfold State.handedTo
  simp [and_assoc]

theorem Answered.mono (h : Answered crypto s) (hhanded : s.handed ⊆ s'.handed)
    (hanswers : ∀ a ∈ s'.answers, a.2.handsTokens → a ∈ s.answers ∨
      ∃ sessionId raw, a.2 = .tokens sessionId raw ∧ crypto.sha256hex raw ∈ s'.handedTo sessionId)
    (hrotated : ∀ id token session raw,
      s'.requests id = some (.refresh token (.rotated session raw)) →
        s.requests id = some (.refresh token (.rotated session raw)) ∨
          crypto.sha256hex raw ∈ s'.handedTo session.id) : Answered crypto s' where
  answers a ha sessionId raw houtcome := by
    have hmono : crypto.sha256hex raw ∈ s.handedTo sessionId →
        crypto.sha256hex raw ∈ s'.handedTo sessionId := by
      rw [mem_handedTo_iff, mem_handedTo_iff]
      rintro ⟨e, he, hkeys⟩
      exact ⟨e, hhanded he, hkeys⟩
    rcases hanswers a ha (by rw [houtcome]; rfl) with hold | ⟨sessionId', raw', hnew, hmem⟩
    · exact hmono (h.answers a hold sessionId raw houtcome)
    · rw [houtcome] at hnew
      cases hnew
      exact hmem
  rotated id token session raw hwork := by
    rcases hrotated id token session raw hwork with hold | hmem
    · have hmem := h.rotated id token session raw hold
      rw [mem_handedTo_iff] at hmem ⊢
      obtain ⟨e, he, hkeys⟩ := hmem
      exact ⟨e, hhanded he, hkeys⟩
    · exact hmem

/-- The request goes on in a phase before or after its rotation. -/
theorem Answered.put (h : Answered crypto s) (hwork : ∀ token session raw,
    work = .refresh token (.rotated session raw) → crypto.sha256hex raw ∈ s.handedTo session.id) :
    Answered crypto (s.put id work) := by
  refine h.mono (List.Subset.refl _) (fun a ha _ => .inl ha) ?_
  intro id' token session raw hid
  rw [requests_put] at hid
  split at hid
  · exact .inr (hwork token session raw (Option.some.inj hid))
  · exact .inl hid

theorem Answered.finish (h : Answered crypto s) {outcome : Outcome} (houtcome : ∀ sessionId raw,
    outcome = .tokens sessionId raw → crypto.sha256hex raw ∈ s.handedTo sessionId) :
    Answered crypto (s.finish id outcome) := by
  refine h.mono (List.Subset.refl _) ?_ ?_
  · intro a ha htokens
    rcases List.mem_append.mp ha with hold | hnew
    · exact .inl hold
    · rw [List.mem_singleton.mp hnew] at htokens ⊢
      cases outcome with
      | tokens sessionId raw => exact .inr ⟨sessionId, raw, rfl, houtcome sessionId raw rfl⟩
      | _ => cases htokens
  · intro id' token session raw hid
    rw [requests_finish] at hid
    split at hid
    · cases hid
    · exact .inl hid

theorem Answered.finish_without (h : Answered crypto s) {outcome : Outcome}
    (houtcome : outcome.handsTokens = false) : Answered crypto (s.finish id outcome) := by
  refine h.finish fun sessionId raw heq => ?_
  rw [heq] at houtcome
  cases houtcome

theorem Answered.step (h : Answered crypto s) (hstep : Effect crypto s act s') :
    Answered crypto s' := by
  cases hstep with
  | elapse => exact ⟨h.answers, h.rotated⟩
  | issue => exact ⟨h.answers, h.rotated⟩
  | request hnew =>
      refine h.put ?_
      rintro token session raw rfl
      cases hnew
  | refuse => exact h.finish_without rfl
  | reads _ hreads =>
      refine h.put ?_
      rintro token session raw rfl
      cases hreads
  | quits _ _ houtcome => exact h.finish_without houtcome
  | takes => exact Answered.put ⟨h.answers, h.rotated⟩ (by simp)
  | denies _ houtcome =>
      refine Answered.finish_without ?_ houtcome
      exact ⟨h.answers, h.rotated⟩
  | draws => exact Answered.put ⟨h.answers, h.rotated⟩ (by simp)
  | @rotates id raw token newToken session expiresAt sessions hwork hrotates hfind hnext =>
      refine Answered.put ?_ ?_
      · exact h.mono (List.subset_append_left _ _) (fun a ha _ => .inl ha)
          fun _ _ _ _ hid => .inl hid
      · intro token' session' raw' heq
        cases heq
        exact mem_handedTo_iff.mpr
          ⟨_, List.mem_append_right _ (List.mem_singleton_self _), rfl, rfl⟩
  | @marks id raw token newToken session hwork =>
      have hmarked : Answered crypto (s.markUsed crypto (crypto.sha256hex token) session.id) :=
        ⟨h.answers, h.rotated⟩
      refine hmarked.finish fun sessionId raw' heq => ?_
      cases heq
      exact h.rotated id token session newToken hwork
  | @opens id raw work userId verified sessions hwork hopens hfind hnext =>
      refine Answered.finish ?_ ?_
      · exact h.mono (List.subset_append_left _ _) (fun a ha _ => .inl ha)
          fun _ _ _ _ hid => .inl hid
      · intro sessionId raw' heq
        cases heq
        exact mem_handedTo_iff.mpr
          ⟨_, List.mem_append_right _ (List.mem_singleton_self _), rfl, rfl⟩
  | revokes _ _ houtcome =>
      refine Answered.finish_without ?_ houtcome
      exact ⟨h.answers, h.rotated⟩
  | updates => exact Answered.put ⟨h.answers, h.rotated⟩ (by simp)
  | revokesAll =>
      refine Answered.finish_without ?_ rfl
      exact ⟨h.answers, h.rotated⟩

/-- Every session has handed out a token. -/
def Rowed (s : State) : Prop :=
  ∀ k r, s.sessions.find? k = some r → ∃ h ∈ s.handed, h.sessionId = k

theorem Rowed.step (h : Rowed s) (hstep : Effect crypto s act s') : Rowed s' := by
  have hmodify : ∀ {f : Session → Session} {k : ℕ} {r : Session},
      (s.sessions.find? k).map f = some r → ∃ h ∈ s.handed, h.sessionId = k := by
    intro f k r hr
    obtain ⟨old, hold, -⟩ := Option.map_eq_some_iff.mp hr
    exact h k old hold
  cases hstep with
  | rotates _ _ hfind =>
      intro k r hr
      unfold State.put at hr
      dsimp only at hr
      rw [hfind] at hr
      obtain ⟨e, he, hk⟩ := hmodify hr
      exact ⟨e, List.mem_append_left _ he, hk⟩
  | opens _ _ hfind =>
      intro k r hr
      unfold State.finish at hr
      dsimp only at hr
      rw [hfind] at hr
      rcases Option.or_eq_some_iff.mp hr with hold | ⟨-, hnew⟩
      · obtain ⟨e, he, hk⟩ := h k r hold
        exact ⟨e, List.mem_append_left _ he, hk⟩
      · split at hnew
        · next hk => exact ⟨_, List.mem_append_right _ (List.mem_singleton_self _), hk⟩
        · cases hnew
  | revokes =>
      intro k r hr
      exact hmodify ((s.sessions.find?_revoke _ k _).symm.trans hr)
  | revokesAll =>
      intro k r hr
      exact hmodify ((s.sessions.find?_revokeAllForUser _ k _).symm.trans hr)
  | _ => exact h

end

/-! ## Single use -/

section

variable {crypto : Crypto} {s s' : State} {acts : List Act} {now : Millis} {users : UserTable}

theorem kept_start : Kept crypto (State.start now users) := by
  refine ⟨by simp [State.start], by simp [State.start], ?_, ?_⟩
  · intro id hash hid
    cases hid
  · intro id id' hash hid
    cases hid

theorem chained_start : (State.start now users).tokens.Chained := by
  refine ⟨List.nodup_nil, fun _ => rfl, ?_, ?_, ?_, List.nodup_nil⟩
  · intro k a h
    cases h
  · simp [State.start, State.tokens]
  · simp [State.start, State.tokens]

theorem answered_start : Answered crypto (State.start now users) := by
  refine ⟨by simp [State.start], ?_⟩
  intro id token session raw hid
  cases hid

theorem rowed_start : Rowed (State.start now users) := by
  intro k r hr
  cases hr

theorem chained_run
    (hrun : Run (Guarded (Steps crypto) (Fresh crypto)) (State.start now users) acts s) :
    Kept crypto s ∧ s.tokens.Chained := by
  obtain ⟨hkept, acts', hrotation⟩ := tokens_run hrun kept_start
  exact ⟨hkept, chained_start.run hrotation⟩

theorem entriesOf_handed (sessionId : ℕ) :
    Rotation.entriesOf s.tokens.handed sessionId = s.handedTo sessionId := by
  unfold Rotation.entriesOf State.tokens State.handedTo
  rw [List.filter_map, List.map_map]
  rfl

theorem entriesOf_swaps (sessionId : ℕ) :
    Rotation.entriesOf s.tokens.swaps sessionId =
      (s.exchangesOf sessionId).map fun e => (e.oldHash, e.newHash) := by
  unfold Rotation.entriesOf State.tokens State.exchangesOf
  rw [List.filter_map, List.map_map]
  rfl

/-- The only step that exchanges a token. -/
theorem exchanges_step {act : Act} (hstep : Effect crypto s act s') :
    s'.exchanges = s.exchanges ∨ ∃ e, s'.exchanges = s.exchanges ++ [e] ∧
      s.tokens.current e.sessionId = some e.oldHash := by
  cases hstep with
  | rotates _ hrotates => exact .inr ⟨_, rfl, current_of_rotates hrotates⟩
  | _ => exact .inl rfl

theorem exchanges_prefix_step {act : Act} (hstep : Effect crypto s act s') :
    s.exchanges <+: s'.exchanges := by
  rcases exchanges_step hstep with hsame | ⟨e, hnew, -⟩
  · rw [hsame]
  · rw [hnew]
    exact List.prefix_append _ _

theorem exchanges_run (hrun : Run (Guarded (Steps crypto) (Fresh crypto)) s acts s') :
    s.exchanges <+: s'.exchanges := by
  induction hrun with
  | nil => exact List.prefix_refl _
  | cons hstep _ ih => exact (exchanges_prefix_step (effect_of_step hstep.1)).trans ih

/-- Nothing of a revoked session is exchanged. -/
theorem exchangesOf_of_revoked (hkept : Kept crypto s) (hrowed : Rowed s) {sessionId : ℕ}
    {session : Session} (hfound : s.sessions.find? sessionId = some session)
    (hrevoked : session.revokedAt.isSome)
    (hrest : Run (Guarded (Steps crypto) (Fresh crypto)) s acts s') :
    s'.exchangesOf sessionId = s.exchangesOf sessionId := by
  obtain ⟨-, acts'', hrotation⟩ := tokens_run hrest hkept
  obtain ⟨e, he, hid⟩ := hrowed sessionId session hfound
  have hopened : Rotation.entriesOf s.tokens.handed sessionId ≠ [] := by
    rw [entriesOf_handed]
    exact List.ne_nil_of_mem (mem_handedTo_iff.mpr ⟨e, he, hid, rfl⟩)
  have hclosed : s.tokens.current sessionId = none := by
    show (s.sessions.find? sessionId).bind Session.current = none
    rw [hfound, Option.bind_some]
    unfold Session.current
    rw [if_neg (by simpa [Option.isSome_iff_ne_none] using hrevoked)]
  have hnone := (Rotation.run_of_closed hrotation hopened hclosed).2
  rw [entriesOf_swaps, entriesOf_swaps] at hnone
  have hkept : s.exchangesOf sessionId <+: s'.exchangesOf sessionId :=
    (exchanges_run hrest).filter _
  have hlength := congrArg List.length hnone
  rw [List.length_map, List.length_map] at hlength
  exact (hkept.eq_of_length hlength.symm).symm

/-- Each token is exchanged once at most; the tokens of a session form one chain, of which only
the last can be exchanged next; after its revocation nothing of a session is exchanged; and what
requests are answered with are tokens of these chains. -/
structure SingleUse (crypto : Crypto) (s : State) : Prop where
  once : (s.exchanges.map Exchange.oldHash).Nodup
  chain : ∀ sessionId, (s.exchangesOf sessionId).map (fun e => (e.oldHash, e.newHash)) =
    (s.handedTo sessionId).zip (s.handedTo sessionId).tail
  distinct : ∀ sessionId, (s.handedTo sessionId).Nodup
  last : ∀ act s' e, Steps crypto s act s' → s'.exchanges = s.exchanges ++ [e] →
    (s.handedTo e.sessionId).getLast? = some e.oldHash
  revoked : ∀ sessionId session acts s', s.sessions.find? sessionId = some session →
    session.revokedAt.isSome → Run (Guarded (Steps crypto) (Fresh crypto)) s acts s' →
      s'.exchangesOf sessionId = s.exchangesOf sessionId
  answers : ∀ a ∈ s.answers, ∀ sessionId raw, a.2 = .tokens sessionId raw →
    crypto.sha256hex raw ∈ s.handedTo sessionId

/-- Refresh tokens are single-use over every run. -/
theorem refresh_single_use
    (hrun : Run (Guarded (Steps crypto) (Fresh crypto)) (State.start now users) acts s) :
    SingleUse crypto s := by
  obtain ⟨hkept, hchained⟩ := chained_run hrun
  have hrowed : Rowed s :=
    hrun.invariant (fun _ _ _ h hstep => h.step (effect_of_step hstep.1)) rowed_start
  constructor
  · have hsingle := hchained.single
    unfold State.tokens at hsingle
    rw [List.map_map] at hsingle
    exact hsingle
  · intro sessionId
    rw [← entriesOf_swaps, ← entriesOf_handed]
    exact hchained.chain sessionId
  · intro sessionId
    rw [← entriesOf_handed]
    exact List.Nodup.sublist (List.filter_sublist.map Prod.snd) hchained.nodup
  · intro act s' e hstep hnew
    rcases exchanges_step (effect_of_step hstep) with hsame | ⟨e', hexchanged, hcurrent⟩
    · rw [hsame] at hnew
      simp at hnew
    · rw [hexchanged] at hnew
      obtain rfl := List.singleton_inj.mp (List.append_cancel_left hnew)
      rw [← entriesOf_handed]
      exact hchained.last _ _ hcurrent
  · intro sessionId session acts' s' hfound hrevoked hrest
    exact exchangesOf_of_revoked hkept hrowed hfound hrevoked hrest
  · exact (hrun.invariant (fun _ _ _ h hstep => h.step (effect_of_step hstep.1))
      answered_start).answers

end

/-! ## A sample server -/

instance (crypto : Crypto) (s : State) (act : Act) : Decidable (Fresh crypto s act) :=
  match act with
  | .go _ raw => inferInstanceAs (Decidable (crypto.sha256hex raw ∉ s.drawn))
  | .elapse _ | .issue _ _ | .request _ _ | .refuse _ => isTrue trivial

/-- A step that draws nothing old. -/
def State.stepFresh (crypto : Crypto) (act : Act) (s : State) : Option State :=
  if Fresh crypto s act then s.step crypto act else none

theorem steps_of_stepFresh {crypto : Crypto} {s s' : State} {act : Act}
    (h : s.stepFresh crypto act = some s') : Guarded (Steps crypto) (Fresh crypto) s act s' := by
  unfold State.stepFresh at h
  split at h
  · next hfresh => exact ⟨h, hfresh⟩
  · cases h

theorem run_stepFresh (crypto : Crypto) (acts : List Act) (s : State) :
    Run (Guarded (Steps crypto) (Fresh crypto)) s (tried (State.stepFresh crypto) acts s).1
      (tried (State.stepFresh crypto) acts s).2 :=
  (run_tried (State.stepFresh crypto) acts s).mono fun _ _ _ => steps_of_stepFresh

/-- A hash is its text with the salt behind it. -/
def sampleCrypto : Crypto where
  sha256hex := id
  hashPassword password salt := password ++ "$" ++ salt
  verifyPassword password hash := (password ++ "$").toList.isPrefixOf hash.toList
  dummyHash := "$"
  refreshTtlMs := 604800000

def sampleUser : User where
  id := 1
  email := "ada@example.com"
  passwordHash := some "old$0"
  authProvider := .email

def sampleStart : State :=
  .start 0 ⟨[sampleUser], 2, by decide, by decide, by decide⟩

def sampleAfter (acts : List Act) : State :=
  (tried (State.stepFresh sampleCrypto) acts sampleStart).2

/-- A login, and its token exchanged. -/
def loginAndRefresh : List Act :=
  [.request 1 (.login "ada@example.com" "old" .asked), .go 1 "", .go 1 "t1",
    .request 2 (.refresh "t1" .presented), .go 2 "", .go 2 "", .go 2 "t2", .go 2 "", .go 2 ""]

theorem refresh_single_use_login :
    SingleUse sampleCrypto (sampleAfter loginAndRefresh) ∧
      (sampleAfter loginAndRefresh).handedTo 1 = ["t1", "t2"] :=
  ⟨refresh_single_use (run_stepFresh sampleCrypto loginAndRefresh sampleStart), by decide +kernel⟩

end Neonfi.Sessions
