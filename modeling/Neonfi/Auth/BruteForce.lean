import Neonfi.Auth.Login
import Neonfi.Lib.Attempts

/-!
# How many passwords can be tried

One lockout counter and the logins that use it are an instance of attempts against a counter
that is checked first and raised later.  The failures evaluated since the counter was last
cleared stay below its limit plus the number of logins in flight.
-/

namespace Neonfi.Auth

open Lib
open Ledger (Millis)

/-! ## Keys -/

theorem emailIpSubject_ne_ipSubject (email : Email) (ip : Option String) :
    emailIpSubject email ip ≠ ipSubject ip := by
  intro h
  have hlists : email.val.toList ++ '|' :: (ip.getD "unknown").toList =
      ['i', 'p'] ++ '|' :: (ip.getD "unknown").toList := by
    have := congrArg String.toList h
    simpa [emailIpSubject, ipSubject, email.property.2] using this
  have hemail : email.val.toList = ['i', 'p'] := List.append_cancel_right hlists
  have hat := email.property.1
  rw [hemail] at hat
  simp at hat

/-- Different accounts have different counters. -/
theorem emailIpSubject_injective (ip : Option String) :
    Function.Injective fun email : Email => emailIpSubject email ip := by
  intro e e' h
  have hlists : e.val.toList ++ '|' :: (ip.getD "unknown").toList =
      e'.val.toList ++ '|' :: (ip.getD "unknown").toList := by
    have := congrArg String.toList h
    simpa [emailIpSubject, e.property.2, e'.property.2] using this
  exact Subtype.ext (String.toList_inj.mp (List.append_cancel_right hlists))

variable {server : Server} {dim : Dim} {key : String}

theorem dim_eq_of_key_eq {b b' : LoginBody} {d d' : Dim}
    (h : server.key b d = server.key b' d') : d = d' := by
  have hinj : ∀ x y, lockoutKey x = lockoutKey y → x = y := by
    intro x y hxy
    have hlists := congrArg String.toList hxy
    rw [lockoutKey, lockoutKey, String.toList_append, String.toList_append] at hlists
    exact String.toList_inj.mp (List.append_cancel_left hlists)
  cases d <;> cases d'
  · rfl
  · exact absurd (hinj _ _ h) (emailIpSubject_ne_ipSubject b.email server.ip)
  · exact absurd (hinj _ _ h).symm (emailIpSubject_ne_ipSubject b'.email server.ip)
  · rfl

/-! ## The tally of one counter -/

section Tally

variable (server : Server) (dim : Dim) (key : String)

/-- A failed login whose failure is not in the counter yet. -/
def Login.uncounted (l : Login) : Bool :=
  match l.phase with
  | .recording recording => server.key l.body dim = key && recording dim = .asked
  | _ => false

/-- A login that found the count below the limit and is not decided yet. -/
def Login.admitted (l : Login) : Bool :=
  match l.phase with
  | .checking reading =>
      server.key l.body dim = key &&
        match reading dim with
        | .asked => false
        | .counted count => count < server.limit dim
        | .done state => !state.locked
  | .admitted => server.key l.body dim = key
  | _ => false

def State.tally (s : State) : Tally where
  count := ((s.redis key).map Counter.count).getD 0
  failed := s.sinceClear key
  uncounted := s.logins.rows.countP fun l => l.uncounted server dim key
  admitted := s.logins.rows.countP fun l => l.admitted server dim key
  inFlight := s.logins.rows.length

end Tally

theorem not_uncounted_and_admitted (l : Login) :
    l.uncounted server dim key = true → l.admitted server dim key = false := by
  unfold Login.uncounted Login.admitted
  cases l.phase <;> simp

theorem tally_parts (s : State) :
    (s.tally server dim key).uncounted + (s.tally server dim key).admitted ≤
      (s.tally server dim key).inFlight := by
  show s.logins.rows.countP _ + s.logins.rows.countP _ ≤ s.logins.rows.length
  have hsplit := List.length_eq_countP_add_countP (fun l : Login => l.uncounted server dim key)
    (l := s.logins.rows)
  have hle : s.logins.rows.countP (fun l => l.admitted server dim key) ≤
      s.logins.rows.countP fun l => ¬ l.uncounted server dim key = true :=
    List.countP_mono_left fun l _ hl => by
      have := @not_uncounted_and_admitted server dim key l
      cases hu : l.uncounted server dim key <;> simp_all
  omega

/-! ## What a step does to the tally -/

/-- No counter expires before the window ends. -/
def Lasting (stop : Millis) (redis : Redis) : Prop :=
  ∀ k c, redis k = some c → ∀ at? ∈ c.expiresAt, stop ≤ at?

section Lasting

variable {redis : Redis} {stop now : Millis}

theorem Lasting.live (h : Lasting stop redis) (hnow : now < stop) (k : String) :
    redis.live now k = redis k := by
  unfold Redis.live
  cases hk : redis k with
  | none => rfl
  | some c =>
      refine Option.filter_eq_some_iff.mpr ⟨rfl, ?_⟩
      cases hat : c.expiresAt with
      | none => rfl
      | some at? =>
          have := h k c hk at? hat
          simpa using lt_of_lt_of_le hnow this

theorem Lasting.update (h : Lasting stop redis) {k : String} {c? : Option Counter}
    (hnew : ∀ c ∈ c?, ∀ at? ∈ c.expiresAt, stop ≤ at?) :
    Lasting stop (Function.update redis k c?) := by
  intro k' c hc at? hat
  by_cases hk : k' = k
  · rw [hk, Function.update_self] at hc
    exact hnew c hc at? hat
  · rw [Function.update_of_ne hk] at hc
    exact h k' c hc at? hat

theorem Lasting.del (h : Lasting stop redis) (k : String) : Lasting stop (redis.del k) :=
  h.update (by simp)

theorem Lasting.incr (h : Lasting stop redis) (hnow : now < stop) (k : String) :
    Lasting stop (redis.incr now k).2 := by
  unfold Redis.incr
  rw [h.live hnow]
  cases hk : redis k with
  | none => exact h.update (by simp)
  | some c => exact h.update (by simpa using h k c hk)

theorem Lasting.pexpire (h : Lasting stop redis) (hnow : now < stop) (k : String) {ms : Millis}
    (hms : stop ≤ now + ms) : Lasting stop (redis.pexpire now k ms) := by
  unfold Redis.pexpire
  rw [h.live hnow]
  cases redis k with
  | none => exact h
  | some c => exact h.update (by simpa using hms)

end Lasting

section Phases

variable {s : State} {login : Login} {phase : Phase}

/-- A new phase trades the marks of the old one for its own. -/
theorem tally_setPhase (h : s.logins.find? login.id = some login) (phase : Phase) :
    ((s.setPhase login phase).tally server dim key).uncounted +
        (if login.uncounted server dim key then 1 else 0) =
      (s.tally server dim key).uncounted +
        (if Login.uncounted server dim key { login with phase } then 1 else 0) ∧
    ((s.setPhase login phase).tally server dim key).admitted +
        (if login.admitted server dim key then 1 else 0) =
      (s.tally server dim key).admitted +
        (if Login.admitted server dim key { login with phase } then 1 else 0) ∧
    ((s.setPhase login phase).tally server dim key).inFlight =
      (s.tally server dim key).inFlight := by
  have huncounted := Table.countP_set (s := { login with phase }) h fun l =>
    l.uncounted server dim key
  have hadmitted := Table.countP_set (s := { login with phase }) h fun l =>
    l.admitted server dim key
  have hflight := Table.length_set (s := { login with phase }) h
  exact ⟨huncounted, hadmitted, hflight⟩

/-- A login that ends takes its marks along. -/
theorem tally_finish (h : s.logins.find? login.id = some login) (answer : Answer) :
    ((s.finish login answer).tally server dim key).uncounted +
        (if login.uncounted server dim key then 1 else 0) =
      (s.tally server dim key).uncounted ∧
    ((s.finish login answer).tally server dim key).admitted ≤
      (s.tally server dim key).admitted ∧
    ((s.finish login answer).tally server dim key).inFlight ≤
      (s.tally server dim key).inFlight := by
  have huncounted := Table.countP_filter_ne h fun l => l.uncounted server dim key
  have hadmitted := Table.countP_filter_ne h fun l => l.admitted server dim key
  exact ⟨huncounted, Nat.le.intro hadmitted, List.length_filter_le _ _⟩

end Phases

section Marks

variable {l : Login}

/-- A login of another counter has no mark. -/
theorem marks_of_ne (h : server.key l.body dim ≠ key) :
    l.uncounted server dim key = false ∧ l.admitted server dim key = false := by
  unfold Login.uncounted Login.admitted
  cases l.phase <;> simp [h]

theorem marks_checking {reading : Dim → Reading} (hphase : l.phase = .checking reading)
    (hkey : server.key l.body dim = key) :
    l.uncounted server dim key = false ∧ l.admitted server dim key =
      match reading dim with
      | .asked => false
      | .counted count => decide (count < server.limit dim)
      | .done state => !state.locked := by
  unfold Login.uncounted Login.admitted
  rw [hphase]
  simp [hkey]

theorem marks_admitted (hphase : l.phase = .admitted) (hkey : server.key l.body dim = key) :
    l.uncounted server dim key = false ∧ l.admitted server dim key = true := by
  unfold Login.uncounted Login.admitted
  rw [hphase]
  simp [hkey]

theorem marks_recording {recording : Dim → Recording} (hphase : l.phase = .recording recording)
    (hkey : server.key l.body dim = key) :
    l.uncounted server dim key = decide (recording dim = .asked) ∧
      l.admitted server dim key = false := by
  unfold Login.uncounted Login.admitted
  rw [hphase]
  simp [hkey]

theorem marks_clearing {cleared : Dim → Bool} (hphase : l.phase = .clearing cleared) :
    l.uncounted server dim key = false ∧ l.admitted server dim key = false := by
  unfold Login.uncounted Login.admitted
  rw [hphase]
  exact ⟨rfl, rfl⟩

end Marks

section Moves

variable {s s' : State} {login : Login} {now stop : Millis} {d : Dim}

open Tally (Move)

/-- A new phase with the same marks moves nothing. -/
theorem move_quiet (hfind : s.logins.find? login.id = some login) {phase : Phase} {t : State}
    (hlogins : t.logins = s.logins)
    (hcount : (t.tally server dim key).count = (s.tally server dim key).count)
    (hfailed : t.sinceClear key = s.sinceClear key)
    (huncounted : Login.uncounted server dim key { login with phase } =
      login.uncounted server dim key)
    (hadmitted : Login.admitted server dim key { login with phase } = true →
      login.admitted server dim key = true) :
    Move (server.limit dim) (s.tally server dim key)
      ((t.setPhase login phase).tally server dim key) := by
  obtain ⟨hu, ha, hflight⟩ :=
    @tally_setPhase server dim key t login (hlogins ▸ hfind) phase
  rw [huncounted] at hu
  have htu : (t.tally server dim key).uncounted = (s.tally server dim key).uncounted := by
    show t.logins.rows.countP _ = s.logins.rows.countP _
    rw [hlogins]
  have hta : (t.tally server dim key).admitted = (s.tally server dim key).admitted := by
    show t.logins.rows.countP _ = s.logins.rows.countP _
    rw [hlogins]
  have htf : (t.tally server dim key).inFlight = (s.tally server dim key).inFlight := by
    show t.logins.rows.length = s.logins.rows.length
    rw [hlogins]
  refine .quiet hcount hfailed (by omega) ?_ (by omega)
  cases hnew : Login.admitted server dim key { login with phase } with
  | true =>
      rw [hnew, hadmitted hnew] at ha
      omega
  | false =>
      rw [hnew] at ha
      simp only [Bool.false_eq_true, if_false] at ha
      omega

/-- Nor does any phase of a login of another counter. -/
theorem move_other (hkey : server.key login.body dim ≠ key)
    (hfind : s.logins.find? login.id = some login) (phase : Phase) {t : State}
    (hlogins : t.logins = s.logins)
    (hcount : (t.tally server dim key).count = (s.tally server dim key).count)
    (hfailed : t.sinceClear key = s.sinceClear key) :
    Move (server.limit dim) (s.tally server dim key)
      ((t.setPhase login phase).tally server dim key) := by
  have hold := marks_of_ne hkey
  have hnew := @marks_of_ne server dim key { login with phase } hkey
  refine move_quiet hfind hlogins hcount hfailed (hnew.1.trans hold.1.symm) fun h => ?_
  rw [hnew.2] at h
  cases h

theorem move_finish (hfind : s.logins.find? login.id = some login) (answer : Answer)
    (huncounted : login.uncounted server dim key = false) :
    Move (server.limit dim) (s.tally server dim key)
      ((s.finish login answer).tally server dim key) := by
  obtain ⟨hu, ha, hflight⟩ := @tally_finish server dim key _ _ hfind answer
  rw [huncounted] at hu
  exact .quiet rfl rfl hu ha hflight

theorem move_getCount (hlast : Lasting stop s.redis) (hnow : now < stop)
    (hfind : s.logins.find? login.id = some login)
    (h : getCount server now s login d = some s') :
    Move (server.limit dim) (s.tally server dim key) (s'.tally server dim key) := by
  unfold getCount at h
  split at h
  · next reading hphase =>
      split at h
      · next hasked =>
          obtain rfl := Option.some.inj h
          by_cases hkey : server.key login.body dim = key
          · obtain ⟨hu, ha⟩ := marks_checking hphase hkey
            set phase := Phase.checking (Function.update reading d
              (.counted ((s.redis.get now (server.key login.body d)).getD 0))) with hset
            obtain ⟨hu', ha'⟩ := @marks_checking server dim key { login with phase } _ hset hkey
            by_cases hd : d = dim
            · subst hd
              have hcount : (s.redis.get now (server.key login.body d)).getD 0 =
                  (s.tally server d key).count := by
                unfold Redis.get
                rw [hlast.live hnow, hkey]
                rfl
              rw [hasked] at ha
              rw [Function.update_self, hcount] at ha'
              obtain ⟨htu, hta, hflight⟩ := @tally_setPhase server d key _ _ hfind phase
              rw [hu, hu'] at htu
              rw [ha, ha'] at hta
              by_cases hlt : (s.tally server d key).count < server.limit d
              · -- the count that is read admits the login
                simp only [hlt] at hta
                exact .enter hlt rfl rfl htu hta hflight
              · simp only [hlt] at hta
                exact .quiet rfl rfl htu hta.le hflight.le
            · rw [Function.update_of_ne (Ne.symm hd)] at ha'
              exact move_quiet hfind rfl rfl rfl (hu'.trans hu.symm) fun h => by
                rw [ha]
                exact ha' ▸ h
          · exact move_other hkey hfind _ rfl rfl rfl
      · cases h
  · cases h

theorem move_getTtl (hfind : s.logins.find? login.id = some login)
    (h : getTtl server now s login d = some s') :
    Move (server.limit dim) (s.tally server dim key) (s'.tally server dim key) := by
  unfold getTtl at h
  split at h
  · next reading hphase =>
      split at h
      · next count hcounted =>
          obtain rfl := Option.some.inj h
          by_cases hkey : server.key login.body dim = key
          · obtain ⟨hu, ha⟩ := marks_checking hphase hkey
            set phase := Phase.checking (Function.update reading d (.done
              (server.lockoutState d count
                (s.redis.pttl now (server.key login.body d))))) with hset
            obtain ⟨hu', ha'⟩ := @marks_checking server dim key { login with phase } _ hset hkey
            refine move_quiet hfind rfl rfl rfl (hu'.trans hu.symm) fun h => ?_
            rw [ha'] at h
            rw [ha]
            by_cases hd : d = dim
            · subst hd
              rw [Function.update_self] at h
              rw [hcounted]
              simpa [Server.lockoutState] using h
            · rwa [Function.update_of_ne (Ne.symm hd)] at h
          · exact move_other hkey hfind _ rfl rfl rfl
      · cases h
  · cases h

theorem move_checkLockout (hfind : s.logins.find? login.id = some login)
    (h : checkLockout s login = some s') :
    Move (server.limit dim) (s.tally server dim key) (s'.tally server dim key) := by
  unfold checkLockout at h
  split at h
  · next reading hphase =>
      split at h
      · next emailLockout ipLockout haccount hip =>
          have hold : login.uncounted server dim key = false := by
            unfold Login.uncounted
            rw [hphase]
          split at h
          · obtain rfl := Option.some.inj h
            exact move_finish hfind _ hold
          · next hunlocked =>
              obtain rfl := Option.some.inj h
              by_cases hkey : server.key login.body dim = key
              · obtain ⟨-, ha⟩ := marks_checking hphase hkey
                obtain ⟨hu', -⟩ :=
                  @marks_admitted server dim key { login with phase := .admitted } rfl hkey
                refine move_quiet hfind rfl rfl rfl (hu'.trans hold.symm) fun _ => ?_
                rw [ha]
                cases dim
                · simp only [haccount]
                  simp_all
                · simp only [hip]
                  simp_all
              · exact move_other hkey hfind _ rfl rfl rfl
      · cases h
  · cases h

theorem sinceClear_countFailure {body₀ : LoginBody} (hkey₀ : server.key body₀ dim = key)
    (body : LoginBody) :
    (s.countFailure server body).sinceClear key =
      if server.key body dim = key then s.sinceClear key + 1 else s.sinceClear key := by
  have hiff : (∃ d ∈ [Dim.account, .ip], server.key body d = key) ↔ server.key body dim = key := by
    constructor
    · rintro ⟨d, -, hd⟩
      rwa [← dim_eq_of_key_eq (hd.trans hkey₀.symm)]
    · intro h
      exact ⟨dim, by cases dim <;> simp, h⟩
  exact if_congr hiff rfl rfl

theorem move_verify {body₀ : LoginBody} (hkey₀ : server.key body₀ dim = key)
    (hfind : s.logins.find? login.id = some login) {users : Users}
    (h : verify server s login users = some s') :
    Move (server.limit dim) (s.tally server dim key) (s'.tally server dim key) := by
  unfold verify at h
  split at h
  · next hphase =>
      split at h
      · obtain rfl := Option.some.inj h
        have hfailed := @sinceClear_countFailure server dim key s body₀ hkey₀ login.body
        by_cases hkey : server.key login.body dim = key
        · rw [if_pos hkey] at hfailed
          obtain ⟨hu, ha⟩ := marks_admitted hphase hkey
          obtain ⟨hu', ha'⟩ := @marks_recording server dim key
            { login with phase := .recording fun _ => .asked } _ rfl hkey
          obtain ⟨htu, hta, hflight⟩ := @tally_setPhase server dim key
            (s.countFailure server login.body) _ hfind (.recording fun _ => .asked)
          rw [hu, hu'] at htu
          rw [ha, ha'] at hta
          exact .fail rfl hfailed htu hta hflight
        · rw [if_neg hkey] at hfailed
          exact move_other hkey hfind _ rfl rfl hfailed
      · obtain rfl := Option.some.inj h
        have hold : login.uncounted server dim key = false := by
          unfold Login.uncounted
          rw [hphase]
        obtain ⟨hu', ha'⟩ := @marks_clearing server dim key
          { login with phase := .clearing fun _ => false } _ rfl
        refine move_quiet hfind rfl rfl rfl (hu'.trans hold.symm) fun h => ?_
        rw [ha'] at h
        cases h
  · cases h

theorem count_incr (hlast : Lasting stop s.redis) (hnow : now < stop) (k : String) :
    (((s.redis.incr now k).2 key).map Counter.count).getD 0 =
      ((s.redis key).map Counter.count).getD 0 + if k = key then 1 else 0 := by
  unfold Redis.incr
  rw [hlast.live hnow]
  by_cases hk : k = key
  · subst hk
    cases s.redis k <;> simp
  · cases s.redis k <;> simp [hk, Function.update_of_ne (Ne.symm hk)]

theorem move_incrCount {body₀ : LoginBody} (hkey₀ : server.key body₀ dim = key)
    (hlast : Lasting stop s.redis) (hnow : now < stop)
    (hfind : s.logins.find? login.id = some login)
    (h : incrCount server now s login d = some s') :
    Move (server.limit dim) (s.tally server dim key) (s'.tally server dim key) := by
  unfold incrCount at h
  split at h
  · next recording hphase =>
      split at h
      · next hasked =>
          obtain rfl := Option.some.inj h
          have hcount := @count_incr key s now stop hlast hnow (server.key login.body d)
          by_cases hkey : server.key login.body dim = key
          · obtain ⟨hu, ha⟩ := marks_recording hphase hkey
            set phase := Phase.recording (Function.update recording d
              (if (s.redis.incr now (server.key login.body d)).1 = 1 then .first else .done))
              with hset
            obtain ⟨hu', ha'⟩ := @marks_recording server dim key { login with phase } _ hset hkey
            by_cases hd : d = dim
            · subst hd
              obtain ⟨htu, hta, hflight⟩ := @tally_setPhase server d key
                { s with redis := (s.redis.incr now (server.key login.body d)).2 } _ hfind phase
              have hmarked : Login.uncounted server d key { login with phase } = false := by
                rw [hu', Function.update_self]
                split <;> rfl
              rw [hu, hmarked, hasked] at htu
              rw [ha, ha'] at hta
              rw [if_pos hkey] at hcount
              exact .record hcount rfl htu hta hflight
            · rw [Function.update_of_ne (Ne.symm hd)] at hu'
              have hne : server.key login.body d ≠ key := fun h =>
                hd (dim_eq_of_key_eq (h.trans hkey₀.symm))
              rw [if_neg hne] at hcount
              refine move_quiet hfind rfl hcount rfl (hu'.trans hu.symm) fun h => ?_
              rw [ha'] at h
              cases h
          · have hne : server.key login.body d ≠ key := fun h => by
              have hd : d = dim := dim_eq_of_key_eq (h.trans hkey₀.symm)
              exact hkey (hd ▸ h)
            rw [if_neg hne] at hcount
            exact move_other hkey hfind _ rfl hcount rfl
      · cases h
  · cases h

theorem count_pexpire (hlast : Lasting stop s.redis) (hnow : now < stop) (k : String) (ms : Millis) :
    (((s.redis.pexpire now k ms) key).map Counter.count).getD 0 =
      ((s.redis key).map Counter.count).getD 0 := by
  unfold Redis.pexpire
  rw [hlast.live hnow]
  by_cases hk : k = key
  · subst hk
    cases hc : s.redis k <;> simp [hc]
  · cases s.redis k <;> simp [Function.update_of_ne (Ne.symm hk)]

theorem move_setExpiry (hlast : Lasting stop s.redis) (hnow : now < stop)
    (hfind : s.logins.find? login.id = some login)
    (h : setExpiry server now s login d = some s') :
    Move (server.limit dim) (s.tally server dim key) (s'.tally server dim key) := by
  unfold setExpiry at h
  split at h
  · next recording hphase =>
      split at h
      · next hfirst =>
          obtain rfl := Option.some.inj h
          have hcount := @count_pexpire key s now stop hlast hnow (server.key login.body d)
            server.config.lockoutMs
          by_cases hkey : server.key login.body dim = key
          · obtain ⟨hu, ha⟩ := marks_recording hphase hkey
            set phase := Phase.recording (Function.update recording d .done) with hset
            obtain ⟨hu', ha'⟩ := @marks_recording server dim key { login with phase } _ hset hkey
            refine move_quiet hfind rfl hcount rfl ?_ fun h => ?_
            · rw [hu, hu']
              by_cases hd : d = dim
              · subst hd
                rw [Function.update_self, hfirst]
                rfl
              · rw [Function.update_of_ne (Ne.symm hd)]
            · rw [ha'] at h
              cases h
          · exact move_other hkey hfind _ rfl hcount rfl
      · cases h
  · cases h

theorem move_reject (hfind : s.logins.find? login.id = some login)
    (h : reject s login = some s') :
    Move (server.limit dim) (s.tally server dim key) (s'.tally server dim key) := by
  unfold reject at h
  split at h
  · next recording hphase =>
      split at h
      · next hdone =>
          obtain rfl := Option.some.inj h
          refine move_finish hfind _ ?_
          unfold Login.uncounted
          rw [hphase]
          cases dim
          · simp [hdone.1]
          · simp [hdone.2]
      · cases h
  · cases h

theorem move_clearCount (hfind : s.logins.find? login.id = some login)
    (h : clearCount server s login d = some s') :
    Move (server.limit dim) (s.tally server dim key) (s'.tally server dim key) := by
  unfold clearCount at h
  split at h
  · next cleared hphase =>
      split at h
      · cases h
      · obtain rfl := Option.some.inj h
        obtain ⟨hu, -⟩ := @marks_clearing server dim key login _ hphase
        set phase := Phase.clearing (Function.update cleared d true) with hset
        obtain ⟨hu', ha'⟩ := @marks_clearing server dim key { login with phase } _ hset
        by_cases hkey : server.key login.body d = key
        · obtain ⟨-, -, hflight⟩ := @tally_setPhase server dim key
            { s with
              redis := s.redis.del (server.key login.body d)
              sinceClear := Function.update s.sinceClear (server.key login.body d) 0 }
            login hfind phase
          refine .reset ?_ ?_ hflight
          · show ((Function.update s.redis (server.key login.body d) none key).map
              Counter.count).getD 0 = 0
            rw [← hkey, Function.update_self]
            rfl
          · show Function.update s.sinceClear (server.key login.body d) 0 key = 0
            rw [← hkey, Function.update_self]
        · refine move_quiet hfind rfl ?_ ?_ (hu'.trans hu.symm) fun h => ?_
          · show ((Function.update s.redis (server.key login.body d) none key).map
              Counter.count).getD 0 = _
            rw [Function.update_of_ne (Ne.symm hkey)]
            rfl
          · exact Function.update_of_ne (Ne.symm hkey) _ _
          · rw [ha'] at h
            cases h
  · cases h

theorem move_succeed (hfind : s.logins.find? login.id = some login)
    (h : succeed s login = some s') :
    Move (server.limit dim) (s.tally server dim key) (s'.tally server dim key) := by
  unfold succeed at h
  split at h
  · next cleared hphase =>
      split at h
      · obtain rfl := Option.some.inj h
        exact move_finish hfind _ (marks_clearing hphase).1
      · cases h
  · cases h

theorem move_start {id : ℕ} {body : LoginBody} (h : start s id body = some s') :
    Move (server.limit dim) (s.tally server dim key) (s'.tally server dim key) := by
  obtain ⟨logins, hinsert, rfl⟩ := Option.map_eq_some_iff.mp h
  have hrows := (Table.rows_of_insert? hinsert).1
  refine .start rfl rfl ?_ ?_ ?_
  · show logins.rows.countP _ = s.logins.rows.countP _
    rw [hrows, List.countP_append]
    simp [Login.uncounted]
  · show logins.rows.countP _ = s.logins.rows.countP _
    rw [hrows, List.countP_append]
    simp [Login.admitted]
  · show logins.rows.length = s.logins.rows.length + 1
    rw [hrows]
    simp

end Moves

/-! ## Runs -/

/-- A step at its time. -/
def Timed (server : Server) (s : State) (a : Millis × Act) (s' : State) : Prop :=
  step server a.1 s a.2 = some s'

def Act.isDel : Act → Bool
  | .del _ _ => true
  | _ => false

def Act.isStart : Act → Bool
  | .start _ _ => true
  | _ => false

/-- The steps of one lockout window, with at most `width` logins in flight. -/
def InWindow (server : Server) (opening : Millis) (width : ℕ) (s : State) (a : Millis × Act) :
    Prop :=
  opening ≤ a.1 ∧ a.1 < opening + server.config.lockoutMs ∧
    (a.2.isStart → s.logins.rows.length < width)

instance (server : Server) (opening : Millis) (width : ℕ) (s : State) (a : Millis × Act) :
    Decidable (InWindow server opening width s a) :=
  inferInstanceAs (Decidable (_ ∧ _ ∧ _))

section Run

variable {s s' : State} {login : Login} {now stop : Millis} {act : Act}

open Tally (Move)

theorem move_step {body₀ : LoginBody} (hkey₀ : server.key body₀ dim = key)
    (hlast : Lasting stop s.redis) (hnow : now < stop) (h : step server now s act = some s') :
    Move (server.limit dim) (s.tally server dim key) (s'.tally server dim key) := by
  have hself : ∀ {l : Login}, s.logins.find? act.loginId = some l →
      s.logins.find? l.id = some l := by
    intro l hl
    rwa [(Table.find?_eq_some_iff.mp hl).2]
  cases act with
  | start id body => exact move_start h
  | get id d =>
      obtain ⟨l, hl, h⟩ := Option.bind_eq_some_iff.mp h
      exact move_getCount hlast hnow (hself hl) h
  | pttl id d =>
      obtain ⟨l, hl, h⟩ := Option.bind_eq_some_iff.mp h
      exact move_getTtl (hself hl) h
  | check id =>
      obtain ⟨l, hl, h⟩ := Option.bind_eq_some_iff.mp h
      exact move_checkLockout (hself hl) h
  | verify id users =>
      obtain ⟨l, hl, h⟩ := Option.bind_eq_some_iff.mp h
      exact move_verify hkey₀ (hself hl) h
  | incr id d =>
      obtain ⟨l, hl, h⟩ := Option.bind_eq_some_iff.mp h
      exact move_incrCount hkey₀ hlast hnow (hself hl) h
  | pexpire id d =>
      obtain ⟨l, hl, h⟩ := Option.bind_eq_some_iff.mp h
      exact move_setExpiry hlast hnow (hself hl) h
  | reject id =>
      obtain ⟨l, hl, h⟩ := Option.bind_eq_some_iff.mp h
      exact move_reject (hself hl) h
  | del id d =>
      obtain ⟨l, hl, h⟩ := Option.bind_eq_some_iff.mp h
      exact move_clearCount (hself hl) h
  | succeed id =>
      obtain ⟨l, hl, h⟩ := Option.bind_eq_some_iff.mp h
      exact move_succeed (hself hl) h

/-- What a step of a login in flight writes: the login changes its phase or ends; three commands
write to Redis; and without a clearing only a failed verification counts. -/
theorem stepLogin_writes (h : stepLogin server now s login act = some s') :
    ((∃ phase, s'.logins = s.logins.set { login with phase }) ∨
        s'.logins = s.logins.filter fun l => l.id ≠ login.id) ∧
      (s'.redis = s.redis ∨ ∃ k, s'.redis = (s.redis.incr now k).2 ∨
        s'.redis = s.redis.pexpire now k server.config.lockoutMs ∨ s'.redis = s.redis.del k) ∧
      (act.isDel ∨ s'.failures = s.failures ∧ s'.sinceClear = s.sinceClear ∨
        s'.failures = (s.countFailure server login.body).failures ∧
          s'.sinceClear = (s.countFailure server login.body).sinceClear) := by
  cases act with
  | start id body => cases h
  | get id d =>
      simp only [stepLogin, getCount] at h
      grind [State.setPhase]
  | pttl id d =>
      simp only [stepLogin, getTtl] at h
      grind [State.setPhase]
  | check id =>
      simp only [stepLogin, checkLockout] at h
      grind [State.setPhase, State.finish]
  | verify id users =>
      simp only [stepLogin, verify] at h
      grind [State.setPhase, State.countFailure]
  | incr id d =>
      simp only [stepLogin, incrCount] at h
      grind [State.setPhase]
  | pexpire id d =>
      simp only [stepLogin, setExpiry] at h
      grind [State.setPhase]
  | reject id =>
      simp only [stepLogin, reject] at h
      grind [State.finish]
  | del id d =>
      simp only [stepLogin, clearCount] at h
      grind [State.setPhase, Act.isDel]
  | succeed id =>
      simp only [stepLogin, succeed] at h
      grind [State.finish]

theorem step_cases (h : step server now s act = some s') :
    (∃ id body, act = .start id body ∧ start s id body = some s') ∨
      ∃ login, s.logins.find? login.id = some login ∧
        stepLogin server now s login act = some s' := by
  cases act with
  | start id body => exact .inl ⟨id, body, rfl, h⟩
  | _ =>
      obtain ⟨l, hl, h⟩ := Option.bind_eq_some_iff.mp h
      refine .inr ⟨l, ?_, h⟩
      rwa [(Table.find?_eq_some_iff.mp hl).2]

theorem lasting_step (hlast : Lasting stop s.redis) (hnow : now < stop)
    (hstop : stop ≤ now + server.config.lockoutMs) (h : step server now s act = some s') :
    Lasting stop s'.redis := by
  rcases step_cases h with ⟨id, body, -, h⟩ | ⟨login, -, h⟩
  · obtain ⟨logins, -, rfl⟩ := Option.map_eq_some_iff.mp h
    exact hlast
  · rcases (stepLogin_writes h).2.1 with heq | ⟨k, heq | heq | heq⟩ <;> rw [heq]
    · exact hlast
    · exact hlast.incr hnow k
    · exact hlast.pexpire hnow k hstop
    · exact hlast.del k

theorem length_step {width : ℕ} (hwidth : s.logins.rows.length ≤ width)
    (hstart : act.isStart → s.logins.rows.length < width)
    (h : step server now s act = some s') : s'.logins.rows.length ≤ width := by
  rcases step_cases h with ⟨id, body, rfl, h⟩ | ⟨login, hfind, h⟩
  · obtain ⟨logins, hinsert, rfl⟩ := Option.map_eq_some_iff.mp h
    have hlt := hstart rfl
    show logins.rows.length ≤ width
    rw [(Table.rows_of_insert? hinsert).1, List.length_append, List.length_singleton]
    omega
  · rcases (stepLogin_writes h).1 with ⟨phase, heq⟩ | heq
    · have hlength := Table.length_set (s := { login with phase }) hfind
      rw [heq, hlength]
      exact hwidth
    · rw [heq]
      exact (List.length_filter_le _ _).trans hwidth

end Run

theorem one_le_limit (server : Server) (dim : Dim) : 1 ≤ server.limit dim := by
  cases dim
  · exact server.config.one_le_maxAttempts
  · exact server.config.one_le_ipMaxAttempts

theorem within_of_run {body₀ : LoginBody} (hkey₀ : server.key body₀ dim = key) {opening : Millis}
    {width : ℕ} {acts : List (Millis × Act)} {s : State}
    (hrun : Run (Guarded (Timed server) (InWindow server opening width)) {} acts s) :
    (s.tally server dim key).Within (server.limit dim) width := by
  have hinv := hrun.invariant (I := fun s =>
    (s.tally server dim key).Within (server.limit dim) width ∧
      Lasting (opening + server.config.lockoutMs) s.redis)
  refine (hinv ?_ ⟨⟨?_, ?_, ?_, ?_⟩, ?_⟩).1
  · rintro s ⟨now, act⟩ s' ⟨hwithin, hlast⟩ ⟨hstep, hfrom, huntil, hstart⟩
    refine ⟨hwithin.move (one_le_limit server dim) ?_ (tally_parts s')
      (move_step hkey₀ hlast huntil hstep), lasting_step hlast huntil ?_ hstep⟩
    · exact length_step hwithin.inFlight hstart hstep
    · exact add_le_add_left hfrom _
  · exact Nat.zero_le _
  · exact le_rfl
  · intro _
    exact le_rfl
  · intro hle
    have hone := one_le_limit server dim
    have hzero : server.limit dim ≤ 0 := hle
    omega
  · intro k c hc
    cases hc

/-- While no counter is cleared, the counts are those of all failed verifications, of the account
and of the IP. -/
theorem sinceClear_eq_failures {acts : List (Millis × Act)} {s : State}
    (hrun : Run (Guarded (Timed server) fun _ a => a.2.isDel = false) {} acts s)
    (body : LoginBody) :
    s.sinceClear (server.key body .account) = s.failures.count body.email ∧
      s.sinceClear (server.key body .ip) = s.failures.length := by
  have hinv := hrun.invariant (I := fun s =>
    s.sinceClear (server.key body .account) = s.failures.count body.email ∧
      s.sinceClear (server.key body .ip) = s.failures.length)
  refine hinv ?_ ⟨rfl, rfl⟩
  rintro s ⟨now, act⟩ s' ⟨haccount, hip⟩ ⟨hstep, hdel⟩
  rcases step_cases hstep with ⟨id, b, -, h⟩ | ⟨login, -, h⟩
  · obtain ⟨logins, -, rfl⟩ := Option.map_eq_some_iff.mp h
    exact ⟨haccount, hip⟩
  · rcases (stepLogin_writes h).2.2 with hisDel | ⟨hf, hc⟩ | ⟨hf, hc⟩
    · rw [hdel] at hisDel
      cases hisDel
    · rw [hf, hc]
      exact ⟨haccount, hip⟩
    · rw [hf, hc, @sinceClear_countFailure server .account _ s body rfl,
        @sinceClear_countFailure server .ip _ s body rfl, haccount, hip]
      have hsame : server.key login.body .account = server.key body .account ↔
          login.body.email = body.email := by
        constructor
        · intro hkey
          have hlists := congrArg String.toList hkey
          simp only [Server.key, lockoutKey, String.toList_append] at hlists
          exact emailIpSubject_injective server.ip
            (String.toList_inj.mp (List.append_cancel_left hlists))
        · intro hemail
          show lockoutKey (emailIpSubject login.body.email server.ip) = _
          rw [hemail]
          rfl
      constructor
      · show _ = (s.failures ++ [login.body.email]).count body.email
        rw [List.count_append, List.count_singleton]
        by_cases hemail : login.body.email = body.email
        · rw [if_pos (hsame.mpr hemail), if_pos (beq_iff_eq.mpr hemail)]
        · rw [if_neg fun h => hemail (hsame.mp h), if_neg fun h => hemail (beq_iff_eq.mp h)]
          rfl
      · show _ = (s.failures ++ [login.body.email]).length
        have hip : server.key login.body .ip = server.key body .ip := rfl
        rw [if_pos hip, List.length_append, List.length_singleton]

/-! ## Guesses around a login of one's own -/

def sampleServer : Server where
  config := {}
  ip := some "10.0.0.1"
  verifyPassword password hash := password = hash
  dummyHash := ""

def sampleEmail : Email := ⟨"a@b.co", by decide +kernel⟩

def sampleUsers : Users := fun email =>
  if email = sampleEmail then some (some "right") else none

def checked (id : ℕ) (password : String) : List Act :=
  [.start id ⟨sampleEmail, password⟩, .get id .account, .pttl id .account, .get id .ip,
    .pttl id .ip, .check id, .verify id sampleUsers]

/-- The failures that open a window set its expiry. -/
def wrongFirst (id : ℕ) : List Act :=
  checked id "wrong" ++
    [.incr id .account, .pexpire id .account, .incr id .ip, .pexpire id .ip, .reject id]

def wrong (id : ℕ) : List Act :=
  checked id "wrong" ++ [.incr id .account, .incr id .ip, .reject id]

def right (id : ℕ) : List Act :=
  checked id "right" ++ [.del id .account, .del id .ip, .succeed id]

/-- Four wrong passwords, the right one, and two more wrong ones, one after the other. -/
def guesses : List (Millis × Act) :=
  (wrongFirst 1 ++ wrong 2 ++ wrong 3 ++ wrong 4 ++ right 5 ++ wrongFirst 6 ++ wrong 7).map
    fun act => (0, act)

def runActs (server : Server) (width : ℕ) (acts : List (Millis × Act)) : Option State :=
  acts.foldlM
    (fun s a => if InWindow server 0 width s a then step server a.1 s a.2 else none) {}

/-- Two logins that were admitted together: with a limit of five, at most six can fail. -/
def overlapping : List (Millis × Act) :=
  (checked 1 "wrong" ++ checked 2 "wrong").map fun act => (0, act)

end Neonfi.Auth
