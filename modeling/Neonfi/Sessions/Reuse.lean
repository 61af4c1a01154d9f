import Neonfi.Sessions.SingleUse

/-!
# Reuse of an exchanged token

The marker of an exchanged token is set once its exchange is answered, and outlives the token.
From then on a presentation of the token finds no session but the marker, and revokes the
session.  A presentation that overlaps the exchange loses the conditional update instead.
-/

namespace Neonfi.Sessions

open Lib
open Ledger (Millis)

def State.Revoked (s : State) (sessionId : ℕ) : Prop :=
  ∃ r, s.sessions.find? sessionId = some r ∧ r.revokedAt.isSome

/-! ## Rows of spent tokens -/

/-- A spent hash is in no row, every token that was handed out is one of a row, and none is good
for longer than a token drawn now. -/
structure Spent (crypto : Crypto) (s : State) : Prop where
  rows : ∀ e ∈ s.exchanges, ∀ r ∈ s.sessions.rows, r.refreshTokenHash ≠ e.oldHash
  kept : ∀ h ∈ s.handed, (s.sessions.find? h.sessionId).isSome
  bound : ∀ h ∈ s.handed, h.expiresAt ≤ s.now + crypto.refreshTtlMs
  drawn : ∀ id token session raw expiresAt,
    s.requests id = some (.refresh token (.rotating session raw expiresAt)) →
      expiresAt ≤ s.now + crypto.refreshTtlMs

section

variable {crypto : Crypto} {s s' : State} {act : Act} {id : ℕ} {work : Work} {sessionId : ℕ}

/-- The rows keep their hashes. -/
theorem mem_rows_modify {sessions : SessionTable} {f : Session → Session}
    (hf : ∀ r, (f r).refreshTokenHash = r.refreshTokenHash)
    (hfind : ∀ k, sessions.find? k = (s.sessions.find? k).map f) {r : Session}
    (hr : r ∈ sessions.rows) :
    ∃ old ∈ s.sessions.rows, old.refreshTokenHash = r.refreshTokenHash := by
  have hfound : sessions.find? r.id = some r := SerialTable.find?_eq_some_iff.mpr ⟨hr, rfl⟩
  rw [hfind] at hfound
  obtain ⟨old, hold, rfl⟩ := Option.map_eq_some_iff.mp hfound
  exact ⟨old, (SerialTable.find?_eq_some_iff.mp hold).1, (hf old).symm⟩

theorem Spent.of_modify (h : Spent crypto s) {sessions : SessionTable} {f : Session → Session}
    (hf : ∀ r, (f r).refreshTokenHash = r.refreshTokenHash)
    (hfind : ∀ k, sessions.find? k = (s.sessions.find? k).map f) :
    Spent crypto { s with sessions } where
  rows e he r hr := by
    obtain ⟨old, hold, hsame⟩ := mem_rows_modify hf hfind hr
    rw [← hsame]
    exact h.rows e he old hold
  kept e he := by
    show (sessions.find? e.sessionId).isSome
    rw [hfind, Option.isSome_map]
    exact h.kept e he
  bound := h.bound
  drawn := h.drawn

theorem Spent.put (h : Spent crypto s) (hwork : ∀ token session raw expiresAt,
    work = .refresh token (.rotating session raw expiresAt) →
      expiresAt ≤ s.now + crypto.refreshTtlMs) : Spent crypto (s.put id work) where
  rows := h.rows
  kept := h.kept
  bound := h.bound
  drawn id' token session raw expiresAt hid := by
    rw [requests_put] at hid
    split at hid
    · exact hwork token session raw expiresAt (Option.some.inj hid)
    · exact h.drawn id' token session raw expiresAt hid

theorem Spent.finish (h : Spent crypto s) {outcome : Outcome} :
    Spent crypto (s.finish id outcome) where
  rows := h.rows
  kept := h.kept
  bound := h.bound
  drawn id' token session raw expiresAt hid := by
    rw [requests_finish] at hid
    split at hid
    · cases hid
    · exact h.drawn id' token session raw expiresAt hid

/-- What was swapped was handed out. -/
theorem handed_of_exchange (h : s.tokens.Chained) {e : Exchange} (he : e ∈ s.exchanges) :
    ∃ hd ∈ s.handed, hd.sessionId = e.sessionId ∧ hd.hash = e.oldHash := by
  have hswapped := h.swapped (e.sessionId, e.oldHash, e.newHash) (List.mem_map_of_mem he)
  obtain ⟨hd, hmem, heq⟩ := List.mem_map.mp hswapped
  exact ⟨hd, hmem, congrArg Prod.fst heq, congrArg Prod.snd heq⟩

theorem Spent.step (h : Spent crypto s) (hkept : Kept crypto s) (hchained : s.tokens.Chained)
    (hfresh : Fresh crypto s act) (hstep : Effect crypto s act s') : Spent crypto s' := by
  have hfreshHash : ∀ {hash : String}, hash ∉ s.handed.map Handed.hash →
      ∀ e ∈ s.exchanges, hash ≠ e.oldHash := by
    rintro hash hnew e he rfl
    obtain ⟨hd, hmem, -, hhash⟩ := handed_of_exchange hchained he
    exact hnew (hhash ▸ List.mem_map_of_mem hmem)
  cases hstep with
  | @elapse ms =>
      have hle : s.now + crypto.refreshTtlMs ≤ s.now + ms + crypto.refreshTtlMs := by
        linarith [Int.natCast_nonneg ms]
      refine ⟨h.rows, h.kept, fun e he => (h.bound e he).trans hle, ?_⟩
      intro id token session raw expiresAt hid
      exact (h.drawn id token session raw expiresAt hid).trans hle
  | issue => exact ⟨h.rows, h.kept, h.bound, h.drawn⟩
  | request hnew =>
      refine h.put ?_
      rintro token session raw expiresAt rfl
      cases hnew
  | refuse => exact h.finish
  | reads _ hreads =>
      refine h.put ?_
      rintro token session raw expiresAt rfl
      cases hreads
  | quits => exact h.finish
  | takes => exact Spent.put ⟨h.rows, h.kept, h.bound, h.drawn⟩ (by simp)
  | denies =>
      refine Spent.finish ?_
      exact ⟨h.rows, h.kept, h.bound, h.drawn⟩
  | draws =>
      refine Spent.put ⟨h.rows, h.kept, h.bound, h.drawn⟩ ?_
      intro token session raw expiresAt heq
      cases heq
      exact le_refl _
  | @rotates id raw token newToken session expiresAt sessions hwork hrotates hfind hnext =>
      have hpending : s.pending crypto id = some (crypto.sha256hex newToken) := by
        unfold State.pending
        rw [hwork]
        rfl
      have hnew := (hkept.fresh id _ hpending).2
      obtain ⟨row, hrow, hcond⟩ := Option.any_eq_true _ _ |>.mp hrotates
      obtain ⟨hmem, hid⟩ := SerialTable.find?_eq_some_iff.mp hrow
      obtain ⟨hhash, -⟩ := of_decide_eq_true hcond
      have hhanded : crypto.sha256hex token ∈ s.handed.map Handed.hash := by
        have hcurrent := hchained.mem_of_current (current_of_rotates hrotates)
        obtain ⟨hd, hhd, heq⟩ := List.mem_map.mp hcurrent
        have hhash' : hd.hash = crypto.sha256hex token := congrArg Prod.snd heq
        rw [← hhash']
        exact List.mem_map_of_mem hhd
      refine Spent.put ⟨?_, ?_, ?_, ?_⟩ (by simp)
      · intro e he r hr
        have hfound : sessions.find? r.id = some r := SerialTable.find?_eq_some_iff.mpr ⟨hr, rfl⟩
        rw [hfind] at hfound
        obtain ⟨old, hold, hr'⟩ := Option.map_eq_some_iff.mp hfound
        obtain ⟨holdmem, holdid⟩ := SerialTable.find?_eq_some_iff.mp hold
        split at hr'
        · subst hr'
          rcases List.mem_append.mp he with he | he
          · exact hfreshHash hnew e he
          · rw [List.mem_singleton.mp he]
            intro heq
            have hsame : crypto.sha256hex newToken = crypto.sha256hex token := heq
            exact hnew (hsame ▸ hhanded)
        · next hother =>
            subst hr'
            rcases List.mem_append.mp he with he | he
            · exact h.rows e he old holdmem
            · rw [List.mem_singleton.mp he]
              intro heq
              have hsame := SerialTable.eq_of_uniq_eq holdmem hmem (congrArg some heq)
                (congrArg some hhash)
              exact hother (hsame ▸ hid)
      · intro hd hmem'
        show (sessions.find? hd.sessionId).isSome
        rw [hfind, Option.isSome_map]
        rcases List.mem_append.mp hmem' with hold | hnew'
        · exact h.kept hd hold
        · rw [List.mem_singleton.mp hnew', hrow]
          rfl
      · intro hd hmem'
        rcases List.mem_append.mp hmem' with hold | hnew'
        · exact h.bound hd hold
        · rw [List.mem_singleton.mp hnew']
          exact h.drawn id token session newToken expiresAt hwork
      · exact h.drawn
  | marks =>
      refine Spent.finish ?_
      exact ⟨h.rows, h.kept, h.bound, h.drawn⟩
  | @opens id raw work userId verified sessions hwork hopens hfind hnext =>
      have hraw : crypto.sha256hex raw ∉ s.drawn := hfresh
      have hnew : crypto.sha256hex raw ∉ s.handed.map Handed.hash := by
        intro hmem
        obtain ⟨hd, hhd, heq⟩ := List.mem_map.mp hmem
        exact hraw (heq ▸ hkept.drawn hd hhd)
      refine Spent.finish ?_
      refine ⟨?_, ?_, ?_, h.drawn⟩
      · intro e he r hr
        have hfound : sessions.find? r.id = some r := SerialTable.find?_eq_some_iff.mpr ⟨hr, rfl⟩
        rw [hfind] at hfound
        rcases Option.or_eq_some_iff.mp hfound with hold | ⟨-, hlast⟩
        · exact h.rows e he r (SerialTable.find?_eq_some_iff.mp hold).1
        · split at hlast
          · cases hlast
            exact hfreshHash hnew e he
          · cases hlast
      · intro hd hmem
        show (sessions.find? hd.sessionId).isSome
        rw [hfind]
        rcases List.mem_append.mp hmem with hold | hlast
        · rw [Option.isSome_or, h.kept hd hold, Bool.true_or]
        · rw [List.mem_singleton.mp hlast, if_pos rfl, Option.isSome_or, Option.isSome_some,
            Bool.or_true]
      · intro hd hmem
        rcases List.mem_append.mp hmem with hold | hlast
        · exact h.bound hd hold
        · rw [List.mem_singleton.mp hlast]
  | revokes =>
      refine Spent.finish (h.of_modify ?_ fun k => s.sessions.find?_revoke _ k _)
      intro r
      split <;> rfl
  | updates => exact Spent.put ⟨h.rows, h.kept, h.bound, h.drawn⟩ (by simp)
  | revokesAll =>
      refine Spent.finish (h.of_modify ?_ fun k => s.sessions.find?_revokeAllForUser _ k _)
      intro r
      split <;> rfl

/-! ## Markers -/

/-- The hash of the exchange is marked, for longer than its token is good. -/
def MarkedFor (s : State) (e : Exchange) : Prop :=
  ∃ m, s.used e.oldHash = some m ∧ m.value = e.sessionId ∧
    ∀ h ∈ s.handed, h.hash = e.oldHash → h.expiresAt ≤ m.expiresAt

/-- The exchange is about to be marked. -/
def Marking (crypto : Crypto) (s : State) (e : Exchange) : Prop :=
  ∃ token session newToken,
    s.requests e.request = some (.refresh token (.rotated session newToken)) ∧
      crypto.sha256hex token = e.oldHash ∧ session.id = e.sessionId

/-- Every exchange is marked or about to be, and what is about to be marked is an exchange. -/
structure Tracked (crypto : Crypto) (s : State) : Prop where
  marked : ∀ e ∈ s.exchanges, MarkedFor s e ∨ Marking crypto s e
  exchange : ∀ id token session newToken,
    s.requests id = some (.refresh token (.rotated session newToken)) →
      ∃ e ∈ s.exchanges, e.request = id ∧ e.oldHash = crypto.sha256hex token ∧
        e.sessionId = session.id

/-- Fresh tokens have other hashes. -/
theorem MarkedFor.of_handed {e : Exchange} (h : MarkedFor s e) (hused : s'.used = s.used)
    (hhanded : ∀ hd ∈ s'.handed, hd.hash = e.oldHash → hd ∈ s.handed) : MarkedFor s' e := by
  obtain ⟨m, hm, hvalue, hexpiry⟩ := h
  exact ⟨m, hused ▸ hm, hvalue, fun hd hmem hhash => hexpiry hd (hhanded hd hmem hhash) hhash⟩

/-- A new token has another hash than those that were exchanged. -/
theorem handed_of_concat (hchained : s.tokens.Chained) {e : Exchange} (he : e ∈ s.exchanges)
    {hd : Handed} (hnew : hd.hash ∉ s.handed.map Handed.hash) :
    ∀ hd' ∈ s.handed ++ [hd], hd'.hash = e.oldHash → hd' ∈ s.handed := by
  intro hd' hmem hhash
  rcases List.mem_append.mp hmem with hold | hlast
  · exact hold
  · rw [List.mem_singleton.mp hlast] at hhash
    obtain ⟨first, hfirst, -, hsame⟩ := handed_of_exchange hchained he
    have hold : first.hash ∈ s.handed.map Handed.hash := List.mem_map_of_mem hfirst
    rw [hsame, ← hhash] at hold
    exact absurd hold hnew

/-- Over a step an exchange that is marked stays marked. -/
theorem MarkedFor.step {e : Exchange} (h : MarkedFor s e) (he : e ∈ s.exchanges)
    (hkept : Kept crypto s) (hchained : s.tokens.Chained) (hspent : Spent crypto s)
    (htracked : Tracked crypto s) (hfresh : Fresh crypto s act) (hstep : Effect crypto s act s') :
    MarkedFor s' e := by
  have hsame : s'.used = s.used → s'.handed = s.handed → MarkedFor s' e := fun hused hhanded =>
    h.of_handed hused fun hd hmem _ => hhanded ▸ hmem
  cases hstep with
  | @rotates id raw token newToken session expiresAt sessions hwork hrotates hfind hnext =>
      have hpending : s.pending crypto id = some (crypto.sha256hex newToken) := by
        unfold State.pending
        rw [hwork]
        rfl
      exact h.of_handed rfl (handed_of_concat hchained he (hkept.fresh id _ hpending).2)
  | @marks id raw token newToken session hwork =>
      by_cases hhash : e.oldHash = crypto.sha256hex token
      · obtain ⟨e', he', -, hold, hsession⟩ := htracked.exchange id token session newToken hwork
        have hsingle := hchained.single
        unfold State.tokens at hsingle
        rw [List.map_map] at hsingle
        obtain rfl := List.inj_on_of_nodup_map hsingle he he' (hhash.trans hold.symm)
        refine ⟨⟨session.id, s.now + crypto.refreshTtlMs⟩, ?_, hsession.symm, ?_⟩
        · show Function.update s.used (crypto.sha256hex token) _ e.oldHash = _
          rw [hhash, Function.update_self]
        · intro hd hmem _
          exact hspent.bound hd hmem
      · obtain ⟨m, hm, hvalue, hexpiry⟩ := h
        refine ⟨m, ?_, hvalue, hexpiry⟩
        show Function.update s.used (crypto.sha256hex token) _ e.oldHash = _
        rw [Function.update_of_ne hhash, hm]
  | @opens id raw work userId verified sessions hwork hopens hfind hnext =>
      have hraw : crypto.sha256hex raw ∉ s.drawn := hfresh
      refine h.of_handed rfl (handed_of_concat hchained he ?_)
      intro hmem
      obtain ⟨hd, hhd, heq⟩ := List.mem_map.mp hmem
      have hsame : hd.hash = crypto.sha256hex raw := heq
      exact hraw (hsame ▸ hkept.drawn hd hhd)
  | _ => exact hsame rfl rfl

/-- A request that is about to mark does that next. -/
theorem Marking.step {e : Exchange} (h : Marking crypto s e) (hspent : Spent crypto s)
    (hstep : Effect crypto s act s') : MarkedFor s' e ∨ Marking crypto s' e := by
  obtain ⟨token, session, newToken, hwork, hhash, hsession⟩ := h
  by_cases hact : act.request? = some e.request
  · cases hstep with
    | elapse => cases hact
    | issue => cases hact
    | request hnew hfree =>
        cases hact
        rw [hwork] at hfree
        cases hfree
    | @marks id raw token' newToken' session' hid =>
        cases hact
        rw [hwork] at hid
        cases hid
        refine .inl ⟨⟨session.id, s.now + crypto.refreshTtlMs⟩, ?_, hsession, ?_⟩
        · show Function.update s.used (crypto.sha256hex token) _ e.oldHash = _
          rw [hhash, Function.update_self]
        · intro hd hmem _
          exact hspent.bound hd hmem
    | reads hid h | quits hid h | opens hid h | revokes hid h =>
        cases hact
        rw [hwork] at hid
        cases hid
        cases h
    | refuse hid | takes hid | denies hid | draws hid | rotates hid | updates hid
    | revokesAll hid =>
        cases hact
        rw [hwork] at hid
        cases hid
  · exact .inr ⟨token, session, newToken, (requests_of_ne hstep hact).trans hwork, hhash, hsession⟩

/-- A phase after the rotation is that of an exchange. -/
theorem exchange_step (htracked : Tracked crypto s) (hstep : Effect crypto s act s')
    {token newToken : String} {session : Session}
    (hid : s'.requests id = some (.refresh token (.rotated session newToken))) :
    ∃ e ∈ s'.exchanges, e.request = id ∧ e.oldHash = crypto.sha256hex token ∧
      e.sessionId = session.id := by
  by_cases hact : act.request? = some id
  · cases hstep with
    | elapse => cases hact
    | issue => cases hact
    | request hnew =>
        cases hact
        rw [requests_put, if_pos rfl] at hid
        cases hid
        cases hnew
    | reads _ h =>
        cases hact
        rw [requests_put, if_pos rfl] at hid
        cases hid
        cases h
    | rotates =>
        cases hact
        rw [requests_put, if_pos rfl] at hid
        cases hid
        exact ⟨_, List.mem_append_right _ (List.mem_singleton_self _), rfl, rfl, rfl⟩
    | takes | draws | updates =>
        cases hact
        rw [requests_put, if_pos rfl] at hid
        cases hid
    | refuse | quits | denies | marks | opens | revokes | revokesAll =>
        cases hact
        rw [requests_finish, if_pos rfl] at hid
        cases hid
  · rw [requests_of_ne hstep hact] at hid
    obtain ⟨e, he, hkeys⟩ := htracked.exchange _ _ _ _ hid
    exact ⟨e, (exchanges_prefix_step hstep).subset he, hkeys⟩

/-- An exchange that the step has made is about to be marked. -/
theorem mem_or_marking (hstep : Effect crypto s act s') {e : Exchange} (he : e ∈ s'.exchanges) :
    e ∈ s.exchanges ∨ Marking crypto s' e := by
  cases hstep with
  | @rotates id raw token newToken session expiresAt sessions hwork hrotates hfind hnext =>
      rcases List.mem_append.mp he with he | he
      · exact .inl he
      · rw [List.mem_singleton.mp he]
        refine .inr ⟨token, session, newToken, ?_, rfl, rfl⟩
        rw [requests_put, if_pos rfl]
  | _ => exact .inl he

theorem Tracked.step (h : Tracked crypto s) (hkept : Kept crypto s) (hchained : s.tokens.Chained)
    (hspent : Spent crypto s) (hfresh : Fresh crypto s act) (hstep : Effect crypto s act s') :
    Tracked crypto s' := by
  refine ⟨?_, fun _ _ _ _ => exchange_step h hstep⟩
  have hold : ∀ e ∈ s.exchanges, MarkedFor s' e ∨ Marking crypto s' e := by
    intro e he
    rcases h.marked e he with hmarked | hmarking
    · exact .inl (hmarked.step he hkept hchained hspent h hfresh hstep)
    · exact hmarking.step hspent hstep
  intro e he
  rcases mem_or_marking hstep he with he | hmarking
  · exact hold e he
  · exact .inr hmarking

/-! ## Detection -/

/-- The invariants of the exchanges and their markers. -/
structure Traced (crypto : Crypto) (s : State) : Prop where
  tokens : Kept crypto s
  chained : s.tokens.Chained
  spent : Spent crypto s
  tracked : Tracked crypto s

theorem Traced.step (h : Traced crypto s)
    (hstep : Guarded (Steps crypto) (Fresh crypto) s act s') : Traced crypto s' := by
  obtain ⟨hstep, hfresh⟩ := hstep
  have heffect := effect_of_step hstep
  obtain ⟨acts, hrotation⟩ := tokens_step h.tokens hfresh heffect
  exact {
    tokens := h.tokens.step hfresh heffect
    chained := h.chained.step hrotation
    spent := h.spent.step h.tokens h.chained hfresh heffect
    tracked := h.tracked.step h.tokens h.chained h.spent hfresh heffect }

theorem traced_start {now : Millis} {users : UserTable} :
    Traced crypto (State.start now users) where
  tokens := kept_start
  chained := chained_start
  spent := by
    refine ⟨by simp [State.start], by simp [State.start], by simp [State.start], ?_⟩
    intro id token session raw expiresAt hid
    cases hid
  tracked := by
    refine ⟨by simp [State.start], ?_⟩
    intro id token session newToken hid
    cases hid

theorem State.Revoked.step {k : ℕ} (h : s.Revoked k) (hstep : Effect crypto s act s') :
    s'.Revoked k := by
  obtain ⟨r, hr, hrevoked⟩ := h
  cases hstep with
  | @rotates id raw token newToken session expiresAt sessions hwork hrotates hfind hnext =>
      refine ⟨_, (hfind k).trans (by rw [hr]; rfl), ?_⟩
      dsimp only
      split <;> exact hrevoked
  | @opens id raw work userId verified sessions hwork hopens hfind hnext =>
      exact ⟨r, (hfind k).trans (by rw [hr]; rfl), hrevoked⟩
  | revokes =>
      refine ⟨_, (s.sessions.find?_revoke _ k _).trans (by rw [hr]; rfl), ?_⟩
      dsimp only
      split
      · rfl
      · exact hrevoked
  | revokesAll =>
      refine ⟨_, (s.sessions.find?_revokeAllForUser _ k _).trans (by rw [hr]; rfl), ?_⟩
      dsimp only
      split
      · rfl
      · exact hrevoked
  | _ => exact ⟨r, hr, hrevoked⟩

/-- The request is about to look a marker up. -/
def Work.looksUpMarker : Work → Bool
  | .refresh _ .unknown => true
  | _ => false

/-- The presentation of a token looks its marker up by this time. -/
def LooksUpBy (id : ℕ) (deadline : Millis) (s : State) (act : Act) : Prop :=
  act.request? = some id → (s.requests id).any Work.looksUpMarker → s.now ≤ deadline

/-- The presentation of an exchanged token is on its way to revoke the session, or it is revoked. -/
def Detecting (s : State) (id : ℕ) (token : String) (sessionId : ℕ) : Prop :=
  (∃ phase ∈ [.presented, .unknown, .reused sessionId],
    s.requests id = some (.refresh token phase)) ∨ s.Revoked sessionId

theorem Detecting.step {e : Exchange} {hd : Handed} {token : String}
    (h : Detecting s id token e.sessionId) (htraced : Traced crypto s) (he : e ∈ s.exchanges)
    (hhash : e.oldHash = crypto.sha256hex token) (hmarked : MarkedFor s e) (hmem : hd ∈ s.handed)
    (hhd : hd.hash = e.oldHash) (hlooks : LooksUpBy id hd.expiresAt s act)
    (hstep : Effect crypto s act s') : Detecting s' id token e.sessionId := by
  rcases h with ⟨phase, hphase, hwork⟩ | hrevoked
  · by_cases hact : act.request? = some id
    · have hother : ∀ {work : Work}, s.requests id = some work → work = .refresh token phase := by
        intro work hid
        rw [hwork] at hid
        exact (Option.some.inj hid).symm
      cases hstep with
      | elapse => cases hact
      | issue => cases hact
      | request hnew hfree =>
          cases hact
          rw [hwork] at hfree
          cases hfree
      | reads hid hreads =>
          cases hact
          obtain rfl := hother hid
          cases hreads with
          | unknown =>
              refine .inl ⟨.unknown, by simp, ?_⟩
              rw [requests_put, if_pos rfl]
          | @found token session hfound =>
              obtain ⟨hrow, hkey⟩ := SerialTable.findUniq?_eq_some_iff.mp hfound
              exact absurd (Option.some.inj hkey) (hhash ▸ htraced.spent.rows e he session hrow)
          | @reused token sessionId hused =>
              obtain ⟨m, hm, hvalue, -⟩ := hmarked
              unfold Markers.get at hused
              rw [← hhash, hm] at hused
              obtain ⟨m', hm', hsession⟩ := Option.map_eq_some_iff.mp hused
              obtain ⟨hsame, -⟩ := Option.filter_eq_some_iff.mp hm'
              cases hsame
              refine .inl ⟨.reused sessionId, by simp [← hsession, hvalue], ?_⟩
              rw [requests_put, if_pos rfl]
          | live => simp at hphase
      | @quits id raw work outcome hid hquits =>
          cases hact
          obtain rfl := hother hid
          cases hquits with
          | unmarked hused =>
              obtain ⟨m, hm, -, hexpiry⟩ := hmarked
              have hlive : s.now ≤ m.expiresAt :=
                (hlooks rfl (by rw [hwork]; rfl)).trans (hexpiry hd hmem hhd)
              unfold Markers.get at hused
              rw [← hhash, hm, Option.filter_some, if_pos (decide_eq_true hlive)] at hused
              cases hused
          | @missing token sessionId hnone =>
              have hsession : sessionId = e.sessionId := by simpa using hphase
              obtain ⟨first, hfirst, hid, -⟩ := handed_of_exchange htraced.chained he
              have hrow := htraced.spent.kept first hfirst
              rw [hid, ← hsession, hnone] at hrow
              cases hrow
          | _ => simp at hphase
      | @revokes id raw work sessionId outcome hid hrevokes =>
          cases hact
          obtain rfl := hother hid
          cases hrevokes with
          | reused =>
              have hsession : sessionId = e.sessionId := by simpa using hphase
              obtain ⟨first, hfirst, hid, -⟩ := handed_of_exchange htraced.chained he
              obtain ⟨r, hr⟩ := Option.isSome_iff_exists.mp (htraced.spent.kept first hfirst)
              rw [hid] at hr
              refine .inr ⟨_, (s.sessions.find?_revoke _ _ _).trans (by rw [hr]; rfl), ?_⟩
              dsimp only
              rw [if_pos ((SerialTable.find?_eq_some_iff.mp hr).2.trans hsession.symm)]
              rfl
      | opens hid hopens =>
          cases hact
          obtain rfl := hother hid
          cases hopens
      | refuse hid | takes hid | denies hid | updates hid | revokesAll hid =>
          cases hact
          cases hother hid
      | draws hid | rotates hid | marks hid =>
          cases hact
          cases hother hid
          simp at hphase
    · exact .inl ⟨phase, hphase, (requests_of_ne hstep hact).trans hwork⟩
  · exact .inr (hrevoked.step hstep)

theorem handed_subset (hstep : Effect crypto s act s') : s.handed ⊆ s'.handed := by
  cases hstep with
  | rotates => exact List.subset_append_left _ _
  | opens => exact List.subset_append_left _ _
  | _ => exact List.Subset.refl _

theorem Detecting.run {acts : List Act} {e : Exchange} {hd : Handed} {token : String}
    (hrun : Run (Guarded (Guarded (Steps crypto) (Fresh crypto)) (LooksUpBy id hd.expiresAt))
      s acts s')
    (h : Detecting s id token e.sessionId) (htraced : Traced crypto s) (he : e ∈ s.exchanges)
    (hhash : e.oldHash = crypto.sha256hex token) (hmarked : MarkedFor s e) (hmem : hd ∈ s.handed)
    (hhd : hd.hash = e.oldHash) : Detecting s' id token e.sessionId := by
  induction hrun with
  | nil => exact h
  | cons hstep _ ih =>
      obtain ⟨⟨hserver, hfresh⟩, hlooks⟩ := hstep
      have heffect := effect_of_step hserver
      exact ih (h.step htraced he hhash hmarked hmem hhd hlooks heffect)
        (htraced.step ⟨hserver, hfresh⟩) ((exchanges_prefix_step heffect).subset he)
        (hmarked.step he htraced.tokens htraced.chained htraced.spent htraced.tracked hfresh
          heffect)
        (handed_subset heffect hmem)

/-- Reuse is detected once the exchange is answered and its marker set: a presentation that looks
the token up after that, and the marker within the lifetime of the token, leaves the session
revoked, and nothing of the session is exchanged afterwards.  A presentation that looked the token
up before the exchange is turned away. -/
theorem reuse_detected {acts : List Act} {now : Millis} {users : UserTable} {e : Exchange}
    {hd : Handed} {token : String}
    (hrun : Run (Guarded (Steps crypto) (Fresh crypto)) (State.start now users) acts s)
    (he : e ∈ s.exchanges) (hhash : e.oldHash = crypto.sha256hex token) (hmem : hd ∈ s.handed)
    (hhd : hd.hash = e.oldHash) :
    (s.requests e.request = none → s.requests id = some (.refresh token .presented) →
      ∀ acts' s', Run (Guarded (Guarded (Steps crypto) (Fresh crypto)) (LooksUpBy id hd.expiresAt))
          s acts' s' → s'.requests id = none →
        s'.Revoked e.sessionId ∧
          ∀ acts'' s'', Run (Guarded (Steps crypto) (Fresh crypto)) s' acts'' s'' →
            s''.exchangesOf e.sessionId = s'.exchangesOf e.sessionId) ∧
      ∀ session newToken expiresAt raw,
        s.requests id = some (.refresh token (.rotating session newToken expiresAt)) →
          s.step crypto (.go id raw) = some (s.finish id (.error .tokenNotFound)) := by
  have htraced : Traced crypto s := hrun.invariant (fun _ _ _ h hstep => h.step hstep) traced_start
  constructor
  · intro hanswered hwork acts' s' hrest hdone
    have hmarked : MarkedFor s e := by
      rcases htraced.tracked.marked e he with hmarked | ⟨_, _, _, hmarking, -⟩
      · exact hmarked
      · rw [hanswered] at hmarking
        cases hmarking
    have hdetecting : Detecting s' id token e.sessionId :=
      Detecting.run hrest (.inl ⟨.presented, by simp, hwork⟩) htraced he hhash hmarked hmem hhd
    rcases hdetecting with ⟨phase, -, hwork'⟩ | hrevoked
    · rw [hdone] at hwork'
      cases hwork'
    · refine ⟨hrevoked, ?_⟩
      obtain ⟨r, hr, hrow⟩ := hrevoked
      have hreached := hrun.append (hrest.mono fun _ _ _ hstep => hstep.1)
      have hrowed : Rowed s' :=
        hreached.invariant (fun _ _ _ h hstep => h.step (effect_of_step hstep.1)) rowed_start
      intro acts'' s'' hlater
      exact exchangesOf_of_revoked (chained_run hreached).1 hrowed hr hrow hlater
  · intro session newToken expiresAt raw hwork
    have hlost : s.sessions.rotates session.id (crypto.sha256hex token) = false := by
      rw [← hhash]
      refine Bool.eq_false_iff.mpr fun hrotates => ?_
      obtain ⟨r, hr, hcond⟩ := Option.any_eq_true _ _ |>.mp hrotates
      obtain ⟨hsame, -⟩ := of_decide_eq_true hcond
      exact htraced.spent.rows e he r (SerialTable.find?_eq_some_iff.mp hr).1 hsame
    calc s.step crypto (.go id raw)
      _ = (s.requests id).map (s.go crypto id raw) := rfl
      _ = some (s.refresh crypto id token raw (.rotating session newToken expiresAt)) := by
        rw [hwork]
        rfl
      _ = some (s.finish id (.error .tokenNotFound)) := by
        unfold State.refresh SessionTable.rotate
        dsimp only
        rw [hlost]
        rfl

end

/-- A token in use again, at any time after its exchange or concurrently with it, always costs the
session. -/
def AlwaysDetected (crypto : Crypto) : Prop :=
  ∀ (now : Millis) (users : UserTable) (acts acts' : List Act) (s s' : State) (e : Exchange)
    (hd : Handed) (id : ℕ) (token : String) (phase : Refreshing),
    Run (Guarded (Steps crypto) (Fresh crypto)) (State.start now users) acts s →
    e ∈ s.exchanges → e.oldHash = crypto.sha256hex token → hd ∈ s.handed → hd.hash = e.oldHash →
    id ≠ e.request → s.requests id = some (.refresh token phase) →
    Run (Guarded (Steps crypto) (Fresh crypto)) s acts' s' → s'.requests id = none →
    s'.now ≤ hd.expiresAt → s'.Revoked e.sessionId

/-- Two refreshes with one token: both have found the session when the first exchanges the token. -/
def raceForToken : List Act :=
  [.request 1 (.login "ada@example.com" "old" .asked), .go 1 "", .go 1 "t1",
    .request 2 (.refresh "t1" .presented), .request 3 (.refresh "t1" .presented),
    .go 2 "", .go 3 "", .go 2 "", .go 3 "", .go 2 "t2", .go 3 "t3", .go 2 ""]

/-- The loser is turned away, and the session lives on. -/
theorem not_alwaysDetected : ¬ AlwaysDetected sampleCrypto := by
  intro hdetected
  have hrun := run_stepFresh sampleCrypto raceForToken sampleStart
  have hrest := run_stepFresh sampleCrypto [.go 3 ""] (sampleAfter raceForToken)
  obtain ⟨r, hr, hrevoked⟩ := hdetected 0 _ _ _ _ _ ⟨2, 1, "t1", "t2"⟩ ⟨1, "t1", 604800000⟩ 3 "t1"
    (.rotating ⟨1, 1, 604800000, none, "t1"⟩ "t3" 604800000) hrun (by decide +kernel) rfl
    (by decide +kernel) rfl (by decide) (by decide +kernel) hrest (by decide +kernel)
    (by decide +kernel)
  have hlive : ((tried (State.stepFresh sampleCrypto) [.go 3 ""]
      (sampleAfter raceForToken)).2.sessions.find? 1).bind Session.revokedAt = none := by
    decide +kernel
  rw [hr, Option.bind_some] at hlive
  rw [hlive] at hrevoked
  cases hrevoked

instance (id : ℕ) (deadline : Millis) (s : State) (act : Act) :
    Decidable (LooksUpBy id deadline s act) :=
  inferInstanceAs (Decidable (_ → _ → _))

/-- A step that looks the marker up in time. -/
def State.stepLooksUp (crypto : Crypto) (id : ℕ) (deadline : Millis) (act : Act) (s : State) :
    Option State :=
  if LooksUpBy id deadline s act then s.stepFresh crypto act else none

theorem run_stepLooksUp (crypto : Crypto) (id : ℕ) (deadline : Millis) (acts : List Act)
    (s : State) :
    Run (Guarded (Guarded (Steps crypto) (Fresh crypto)) (LooksUpBy id deadline)) s
      (tried (State.stepLooksUp crypto id deadline) acts s).1
      (tried (State.stepLooksUp crypto id deadline) acts s).2 := by
  refine (run_tried (State.stepLooksUp crypto id deadline) acts s).mono ?_
  intro s act s' h
  unfold State.stepLooksUp at h
  split at h
  · next hlooks => exact ⟨steps_of_stepFresh h, hlooks⟩
  · cases h

/-- The exchanged token is presented again. -/
def replayed : State := sampleAfter (loginAndRefresh ++ [.request 3 (.refresh "t1" .presented)])

def replayAnswered : State :=
  (tried (State.stepLooksUp sampleCrypto 3 604800000) [.go 3 "", .go 3 "", .go 3 ""] replayed).2

theorem reuse_detected_replay : replayAnswered.Revoked 1 :=
  ((@reuse_detected sampleCrypto replayed 3 _ 0 sampleStart.users ⟨2, 1, "t1", "t2"⟩
    ⟨1, "t1", 604800000⟩ "t1" (run_stepFresh sampleCrypto _ sampleStart) (by decide +kernel) rfl
    (by decide +kernel) rfl).1 (by decide +kernel) (by decide +kernel) _ replayAnswered
    (run_stepLooksUp sampleCrypto 3 604800000 _ replayed) (by decide +kernel)).1

end Neonfi.Sessions
