import Mathlib.Data.Fintype.EquivFin
import Neonfi.Ledger.Model
import Neonfi.Lib.Run

/-!
# The sliding-window rate limit

`rateLimit` keeps the hits of a bucket and a client address in a sorted set of Redis.  A request
reads the clock of the process; its pipeline drops the hits that have left the window, adds the
request, counts, and lets the whole set expire one window later, on the clock of Redis.
-/

namespace Neonfi.Http

open Lib
open Ledger (Millis)

/-- `RateLimitOptions`; the configuration keeps the window at a second or more. -/
structure RateLimitOptions where
  limit : ℕ
  windowMs : ℕ
  windowMs_pos : 0 < windowMs

/-- The bucket and the client address of `ratelimit:<id>:<ip>`. -/
abbrev Key := String × String

/-! ## The pipeline -/

/-- The clock reading and the random number that make a member. -/
abbrev Member := Millis × ℕ

/-- A member of a sorted set and its score. -/
abbrev Hit := Member × Millis

/-- A sorted set and when it expires. -/
structure SortedSet where
  hits : Table Hit Member Prod.fst := .empty
  expiresAt : Option Millis := none

namespace SortedSet

variable (z : SortedSet) (time : Millis)

/-- The key is deleted once its time is over. -/
def expired : Bool := z.expiresAt.any (· < time)

def read : Table Hit Member Prod.fst := if z.expired time then .empty else z.hits

/-- The four commands of one request, executed at `time`, and the answer of `ZCARD`. -/
def hit (windowMs : ℕ) (now : Millis) (member : Member) : ℕ × SortedSet :=
  let windowStart := now - windowMs
  let hits := (z.read time).filter fun h => ¬ (0 ≤ h.2 ∧ h.2 ≤ windowStart)
  let hits := hits.set (member, now)
  (hits.rows.length, { hits, expiresAt := some (time + windowMs) })

end SortedSet

/-! ## Requests -/

/-- `Retry-After` in seconds. -/
def retryAfter (windowMs : ℕ) : ℕ := (windowMs + 999) / 1000

inductive Answer
  | next
  | rateLimited (retryAfter : ℕ)
  deriving DecidableEq, Repr

/-- A request that was let through. -/
structure Admission where
  key : Key
  member : Member
  deriving DecidableEq, Repr

/-- The clock reading of the request. -/
def Admission.now (a : Admission) : Millis := a.member.1

/-- The clock of Redis and its sorted sets, the last reading of the process clock, the members
drawn, the requests let through, and the answers. -/
structure Limiter where
  time : Millis := 0
  sets : Key → SortedSet := fun _ => {}
  reading : Option Millis := none
  members : List Member := []
  admitted : List Admission := []
  answers : List (Key × Answer) := []

/-- Time passes at Redis, or the pipeline of a request is executed. -/
inductive Act
  | elapse (ms : ℕ)
  | request (key : Key) (now : Millis) (draw : ℕ)
  deriving DecidableEq, Repr

namespace Limiter

variable (options : String → RateLimitOptions) (s : Limiter)

/-- `rateLimit` on a request that is not skipped, with Redis at work. -/
def rateLimit (key : Key) (now : Millis) (member : Member) : Limiter :=
  let opts := options key.1
  let (count, z) := (s.sets key).hit s.time opts.windowMs now member
  let s := { s with
    sets := Function.update s.sets key z
    reading := some now
    members := member :: s.members }
  if opts.limit < count then
    { s with answers := s.answers ++ [(key, .rateLimited (retryAfter opts.windowMs))] }
  else
    { s with
      admitted := ⟨key, member⟩ :: s.admitted
      answers := s.answers ++ [(key, .next)] }

/-- The process clock does not go back, and no member is drawn twice. -/
def step : Act → Option Limiter
  | .elapse ms => some { s with time := s.time + ms }
  | .request key now draw =>
      if s.reading.all (· ≤ now) ∧ (now, draw) ∉ s.members then
        some (s.rateLimit options key now (now, draw))
      else none

end Limiter

def Steps (options : String → RateLimitOptions) (s : Limiter) (act : Act) (s' : Limiter) : Prop :=
  s.step options act = some s'

/-! ## The limit -/

/-- The request is one of the key, in the window that begins at `start`. -/
def inWindow (options : String → RateLimitOptions) (key : Key) (start : Millis) (a : Admission) :
    Bool :=
  a.key = key ∧ start ≤ a.now ∧ a.now < start + (options key.1).windowMs

/-- The requests of a window that were let through. -/
def admittedIn (options : String → RateLimitOptions) (s : Limiter) (key : Key) (start : Millis) :
    List Admission :=
  s.admitted.filter (inWindow options key start)

/-- No window holds more than the limit. -/
def Limited (options : String → RateLimitOptions) (s : Limiter) : Prop :=
  ∀ key start, (admittedIn options s key start).length ≤ (options key.1).limit

/-- When a request finds the key expired, no request of the window that ends with it was let
through before. -/
def ExpiresInTime (options : String → RateLimitOptions) (s : Limiter) (act : Act) : Prop :=
  ∀ key now draw, act = .request key now draw → (s.sets key).expired s.time →
    ∀ a ∈ s.admitted, a.key = key → a.now ≤ now - (options key.1).windowMs

/-- What was let through is in the set of its key, unless it has left the window of the last
request. -/
structure Counted (options : String → RateLimitOptions) (s : Limiter) : Prop where
  nodup : (s.admitted.map Admission.member).Nodup
  drawn : ∀ a ∈ s.admitted, a.member ∈ s.members
  past : ∀ a ∈ s.admitted, ∃ last, s.reading = some last ∧ a.now ≤ last
  held : ∀ a ∈ s.admitted, (a.member, a.now) ∈ (s.sets a.key).hits.rows ∨
    ∀ last, s.reading = some last → a.now ≤ last - (options a.key.1).windowMs
  limited : Limited options s

section

variable {options : String → RateLimitOptions} {s s' : Limiter} {act : Act} {key : Key}
  {now : Millis} {draw : ℕ}

theorem counted_start : Counted options {} where
  nodup := List.nodup_nil
  drawn := nofun
  past := nofun
  held := nofun
  limited := fun _ _ => Nat.zero_le _

/-- After the pipeline the set holds the request and what was there within the window. -/
theorem mem_hit {z : SortedSet} {time : Millis} {windowMs : ℕ} {member : Member} {h : Hit} :
    h ∈ (z.hit time windowMs now member).2.hits.rows ↔
      h = (member, now) ∨ (h ∈ (z.read time).rows ∧ ¬ (0 ≤ h.2 ∧ h.2 ≤ now - windowMs)) ∧
        h.1 ≠ member := by
  unfold SortedSet.hit
  dsimp only
  rw [Table.mem_rows_set, Table.rows_filter, List.mem_filter, decide_eq_true_eq]

/-- What the pipeline of a request leaves of the requests that were let through before. -/
theorem Counted.held_after (h : Counted options s) (hnow : s.reading.all (· ≤ now))
    (hfresh : (now, draw) ∉ s.members)
    (hexpires : (s.sets key).expired s.time →
      ∀ a ∈ s.admitted, a.key = key → a.now ≤ now - (options key.1).windowMs)
    {a : Admission} (ha : a ∈ s.admitted) (hkey : a.key = key) :
    (a.member, a.now) ∈
        ((s.sets key).hit s.time (options key.1).windowMs now (now, draw)).2.hits.rows ∨
      a.now ≤ now - (options key.1).windowMs := by
  have hne : a.member ≠ (now, draw) := fun heq => hfresh (heq ▸ h.drawn a ha)
  by_cases hexpired : (s.sets key).expired s.time = true
  · exact .inr (hexpires hexpired a ha hkey)
  · obtain hheld | hpast := h.held a ha
    · rw [hkey] at hheld
      by_cases hleft : 0 ≤ a.now ∧ a.now ≤ now - (options key.1).windowMs
      · exact .inr hleft.2
      · refine .inl (mem_hit.mpr (.inr ⟨⟨?_, hleft⟩, hne⟩))
        unfold SortedSet.read
        rw [if_neg hexpired]
        exact hheld
    · obtain ⟨last, hlast, -⟩ := h.past a ha
      have hle : last ≤ now := by
        rw [hlast] at hnow
        exact of_decide_eq_true hnow
      have hleft := hpast last hlast
      rw [hkey] at hleft
      exact .inr (hleft.trans (Int.sub_le_sub_right hle _))

/-- A window that ends with a request holds no more requests than the set. -/
theorem length_admittedIn_le {hits : Table Hit Member Prod.fst}
    {admitted : List Admission} (hnodup : (admitted.map Admission.member).Nodup)
    (hsubset : ∀ a ∈ admitted, a.member ∈ hits.rows.map Prod.fst) :
    admitted.length ≤ hits.rows.length := by
  have hsub : admitted.map Admission.member ⊆ hits.rows.map Prod.fst := by
    intro m hm
    obtain ⟨a, ha, rfl⟩ := List.mem_map.mp hm
    exact hsubset a ha
  have hle := (hnodup.subperm hsub).length_le
  rwa [List.length_map, List.length_map] at hle

theorem Counted.rateLimit (h : Counted options s) (hnow : s.reading.all (· ≤ now))
    (hfresh : (now, draw) ∉ s.members)
    (hexpires : (s.sets key).expired s.time →
      ∀ a ∈ s.admitted, a.key = key → a.now ≤ now - (options key.1).windowMs) :
    Counted options (s.rateLimit options key now (now, draw)) := by
  have hlast : ∀ {last}, s.reading = some last → last ≤ now := by
    intro last hlast
    rw [hlast] at hnow
    exact of_decide_eq_true hnow
  have hpast : ∀ a ∈ s.admitted, a.now ≤ now := by
    intro a ha
    obtain ⟨last, hreading, hle⟩ := h.past a ha
    exact hle.trans (hlast hreading)
  -- what was let through before is in the sets of the next state, or too old for its window
  have hheld : ∀ a ∈ s.admitted,
      (a.member, a.now) ∈ (Function.update s.sets key
        ((s.sets key).hit s.time (options key.1).windowMs now (now, draw)).2 a.key).hits.rows ∨
        a.now ≤ now - (options a.key.1).windowMs := by
    intro a ha
    by_cases hkey : a.key = key
    · subst hkey
      rw [Function.update_self]
      exact h.held_after hnow hfresh hexpires ha rfl
    · rw [Function.update_of_ne hkey]
      refine (h.held a ha).imp_right fun hleft => ?_
      obtain ⟨last, hreading, -⟩ := h.past a ha
      exact (hleft last hreading).trans (Int.sub_le_sub_right (hlast hreading) _)
  have hnew : ((now, draw), now) ∈ (Function.update s.sets key
      ((s.sets key).hit s.time (options key.1).windowMs now (now, draw)).2 key).hits.rows := by
    rw [Function.update_self]
    exact mem_hit.mpr (.inl rfl)
  unfold Limiter.rateLimit
  extract_lets opts
  dsimp only
  split
  · exact
      { nodup := h.nodup
        drawn := fun a ha => List.mem_cons_of_mem _ (h.drawn a ha)
        past := fun a ha => ⟨now, rfl, hpast a ha⟩
        held := fun a ha => (hheld a ha).imp_right fun hleft last hreading => by
          cases hreading
          exact hleft
        limited := h.limited }
  · next hcount =>
      have hnodup : ((⟨key, (now, draw)⟩ :: s.admitted).map Admission.member).Nodup := by
        refine List.nodup_cons.mpr ⟨fun hmem => ?_, h.nodup⟩
        obtain ⟨a, ha, hmember⟩ := List.mem_map.mp hmem
        have hdrawn := h.drawn a ha
        rw [hmember] at hdrawn
        exact hfresh hdrawn
      refine
        { nodup := hnodup
          drawn := fun a ha => ?_
          past := fun a ha => ⟨now, rfl, ?_⟩
          held := fun a ha => ?_
          limited := fun other start => ?_ }
      · obtain rfl | ha := List.mem_cons.mp ha
        · exact List.mem_cons_self
        · exact List.mem_cons_of_mem _ (h.drawn a ha)
      · obtain rfl | ha := List.mem_cons.mp ha
        · exact le_refl now
        · exact hpast a ha
      · obtain rfl | ha := List.mem_cons.mp ha
        · exact .inl hnew
        · refine (hheld a ha).imp_right fun hleft last hreading => ?_
          cases hreading
          exact hleft
      · by_cases hwindow : other = key ∧ start ≤ now ∧ now < start + (options key.1).windowMs
        · obtain ⟨rfl, -, hend⟩ := hwindow
          refine (length_admittedIn_le (hnodup.sublist ((List.filter_sublist).map _)) ?_).trans
            (not_lt.mp hcount)
          intro a ha
          obtain ⟨hmem, hin⟩ := List.mem_filter.mp ha
          obtain ⟨hkey, hstart, -⟩ := of_decide_eq_true hin
          refine List.mem_map.mpr ⟨(a.member, a.now), ?_, rfl⟩
          obtain rfl | hmem := List.mem_cons.mp hmem
          · exact mem_hit.mpr (.inl rfl)
          · obtain hheld | hleft := h.held_after hnow hfresh hexpires hmem hkey
            · exact hheld
            · have hlt : now - (options other.1).windowMs < start := sub_lt_iff_lt_add.mpr hend
              exact absurd (hstart.trans hleft) (not_le_of_gt hlt)
        · have hother : admittedIn options
              { s with
                sets := Function.update s.sets key
                  ((s.sets key).hit s.time (options key.1).windowMs now (now, draw)).2
                reading := some now
                members := (now, draw) :: s.members
                admitted := ⟨key, (now, draw)⟩ :: s.admitted
                answers := s.answers ++ [(key, .next)] } other start =
              admittedIn options s other start := by
            refine List.filter_cons_of_neg ?_
            unfold inWindow
            rw [decide_eq_true_eq]
            rintro ⟨rfl, hin⟩
            exact hwindow ⟨rfl, hin⟩
          rw [hother]
          exact h.limited other start

/-- Every step keeps the count while keys expire in time. -/
theorem Counted.step (h : Counted options s) (hstep : Steps options s act s')
    (hok : ExpiresInTime options s act) : Counted options s' := by
  unfold Steps Limiter.step at hstep
  cases act with
  | elapse ms =>
      cases hstep
      exact ⟨h.nodup, h.drawn, h.past, h.held, h.limited⟩
  | request key now draw =>
      dsimp only at hstep
      split at hstep
      · next hready =>
          cases hstep
          exact h.rateLimit hready.1 hready.2 fun hexpired a ha hkey =>
            hok key now draw rfl hexpired a ha hkey
      · cases hstep

/-! ## Keys that expire early -/

theorem length_set_le (T : Table Hit Member Prod.fst) (h : Hit) :
    (T.set h).rows.length ≤ T.rows.length + 1 := by
  unfold Table.set
  split
  · rw [Table.rows_modify, List.length_map]
    exact Nat.le_succ _
  · exact (List.length_append).le

theorem length_hit_le (z : SortedSet) (time : Millis) (windowMs : ℕ) (member : Member) :
    (z.hit time windowMs now member).1 ≤ (z.read time).rows.length + 1 :=
  (length_set_le _ _).trans (Nat.add_le_add_right (List.length_filter_le _ _) _)

/-- The key is there, and the clock has read `now`. -/
structure Ready (s : Limiter) (key : Key) (now : Millis) : Prop where
  reading : s.reading = some now
  fresh : (s.sets key).expired s.time = false

/-- A request that finds few hits is let through, and leaves the key ready. -/
theorem rateLimit_of_few {member : Member}
    (hfew : ((s.sets key).read s.time).rows.length < (options key.1).limit) :
    (s.rateLimit options key now member).admitted = ⟨key, member⟩ :: s.admitted ∧
      Ready (s.rateLimit options key now member) key now ∧
      (((s.rateLimit options key now member).sets key).read
        (s.rateLimit options key now member).time).rows.length ≤
        ((s.sets key).read s.time).rows.length + 1 := by
  have hcount := @length_hit_le now (s.sets key) s.time (options key.1).windowMs member
  have hfresh : ((s.sets key).hit s.time (options key.1).windowMs now member).2.expired s.time =
      false := by
    change (some (s.time + ((options key.1).windowMs : ℤ))).any (· < s.time) = false
    rw [Option.any_some, decide_eq_false_iff_not, not_lt]
    exact Int.le_add_of_nonneg_right (Int.natCast_nonneg _)
  unfold Limiter.rateLimit
  dsimp only
  rw [if_neg (by omega)]
  refine ⟨rfl, ⟨rfl, ?_⟩, ?_⟩
  · dsimp only
    rw [Function.update_self]
    exact hfresh
  · dsimp only
    rw [Function.update_self]
    unfold SortedSet.read at hcount ⊢
    rw [hfresh]
    exact hcount

theorem exists_fresh (members : List Member) (now : Millis) :
    ∃ draw, (now, draw) ∉ members := by
  obtain ⟨draw, hdraw⟩ := Infinite.exists_notMem_finset (members.map Prod.snd).toFinset
  refine ⟨draw, fun hmem => hdraw ?_⟩
  rw [List.mem_toFinset]
  exact List.mem_map.mpr ⟨(now, draw), hmem, rfl⟩

/-- Requests at one reading, as many as the limit leaves room for, are all let through. -/
theorem exists_burst (n : ℕ) (hready : Ready s key now)
    (hroom : ((s.sets key).read s.time).rows.length + n ≤ (options key.1).limit) :
    ∃ acts t new, Run (Guarded (Steps options) (ExpiresInTime options)) s acts t ∧
      t.admitted = new ++ s.admitted ∧ new.length = n ∧
        ∀ a ∈ new, a.key = key ∧ a.now = now := by
  induction n generalizing s with
  | zero => exact ⟨[], s, [], .nil _, rfl, rfl, nofun⟩
  | succ n ih =>
      obtain ⟨draw, hdraw⟩ := exists_fresh s.members now
      obtain ⟨hadmitted, hready', hlength⟩ :=
        @rateLimit_of_few options s key now (now, draw) (by omega)
      have hstep : Steps options s (.request key now draw)
          (s.rateLimit options key now (now, draw)) := by
        unfold Steps Limiter.step
        dsimp only
        rw [if_pos]
        refine ⟨?_, hdraw⟩
        rw [hready.reading]
        exact decide_eq_true (le_refl now)
      have hok : ExpiresInTime options s (.request key now draw) := by
        intro _ _ _ hact hexpired
        cases hact
        rw [hready.fresh] at hexpired
        cases hexpired
      obtain ⟨acts, t, new, hrun, ht, hnew, hall⟩ := ih hready' (by omega)
      refine ⟨_, t, new ++ [⟨key, (now, draw)⟩], .cons ⟨hstep, hok⟩ hrun, ?_, ?_, ?_⟩
      · rw [ht, hadmitted, List.append_assoc]
        rfl
      · rw [List.length_append, hnew]
        rfl
      · intro a ha
        obtain ha | ha := List.mem_append.mp ha
        · exact hall a ha
        · obtain rfl := List.mem_singleton.mp ha
          exact ⟨rfl, rfl⟩

theorem admittedIn_of_mem {a : Admission} (ha : a ∈ s.admitted) :
    a ∈ admittedIn options s a.key a.now := by
  refine List.mem_filter.mpr ⟨ha, decide_eq_true ⟨rfl, le_refl _, ?_⟩⟩
  exact Int.lt_add_of_pos_right _ (Int.natCast_pos.mpr (options a.key.1).windowMs_pos)

/-- A key that expires with a request of the window before it lets one request too many through. -/
theorem exists_overrun (h : Counted options s) (hstep : Steps options s act s')
    (hnot : ¬ ExpiresInTime options s act) :
    ∃ acts t, Run (Guarded (Steps options) (ExpiresInTime options)) s' acts t ∧
      ¬ Limited options t := by
  unfold ExpiresInTime at hnot
  push Not at hnot
  obtain ⟨key, now, draw, rfl, hexpired, a, ha, rfl, hinside⟩ := hnot
  unfold Steps Limiter.step at hstep
  dsimp only at hstep
  split at hstep
  · next hready =>
      cases hstep
      have hempty : ((s.sets a.key).read s.time).rows = [] := by
        unfold SortedSet.read
        rw [if_pos hexpired]
        rfl
      have hlimit : 1 ≤ (options a.key.1).limit :=
        (List.length_pos_of_mem (admittedIn_of_mem ha)).trans_le (h.limited a.key a.now)
      obtain ⟨hadmitted, hready', hlength⟩ :=
        @rateLimit_of_few options s a.key now (now, draw) (by rw [hempty]; exact hlimit)
      have hroom : (((s.rateLimit options a.key now (now, draw)).sets a.key).read
          (s.rateLimit options a.key now (now, draw)).time).rows.length +
            ((options a.key.1).limit - 1) ≤ (options a.key.1).limit := by
        rw [hempty, List.length_nil] at hlength
        omega
      obtain ⟨acts, t, new, hrun, ht, hnew, hall⟩ := exists_burst _ hready' hroom
      refine ⟨acts, t, hrun, fun hlimited => ?_⟩
      obtain ⟨last, hlast, hpast⟩ := h.past a ha
      have hle : a.now ≤ now := by
        have hnow := hready.1
        rw [hlast] at hnow
        exact hpast.trans (of_decide_eq_true hnow)
      have hend : now < a.now + (options a.key.1).windowMs := sub_lt_iff_lt_add.mp hinside
      have hin : ∀ b : Admission, b.key = a.key → b.now = now →
          inWindow options a.key a.now b = true := by
        intro b hkey hnow
        unfold inWindow
        rw [decide_eq_true_eq, hnow]
        exact ⟨hkey, hle, hend⟩
      have hcount := hlimited a.key a.now
      unfold admittedIn at hcount
      rw [ht, hadmitted, List.filter_append,
        List.filter_cons_of_pos (hin ⟨a.key, (now, draw)⟩ rfl rfl),
        List.filter_eq_self.mpr fun b hb => hin b (hall b hb).1 (hall b hb).2,
        List.length_append, List.length_cons, hnew] at hcount
      have hself : 1 ≤ (admittedIn options s a.key a.now).length :=
        List.length_pos_of_mem (admittedIn_of_mem ha)
      unfold admittedIn at hself
      omega
  · cases hstep

/-- While keys expire in time no window holds more than the limit, and a step keeps it so for good
exactly when it meets the same condition. -/
theorem rateLimit_iff_expiresInTime {acts : List Act}
    (h : Run (Guarded (Steps options) (ExpiresInTime options)) {} acts s) :
    Limited options s ∧ ∀ act s', Steps options s act s' →
      (ExpiresInTime options s act ↔
        ∀ acts' t, Run (Guarded (Steps options) (ExpiresInTime options)) s' acts' t →
          Limited options t) := by
  have hkeep : ∀ s act t, Counted options s →
      Guarded (Steps options) (ExpiresInTime options) s act t → Counted options t :=
    fun _ _ _ hs hstep => hs.step hstep.1 hstep.2
  have hcounted : Counted options s := h.invariant hkeep counted_start
  refine ⟨hcounted.limited, fun act s' hstep => ⟨fun hok acts' t hrun => ?_, fun hall => ?_⟩⟩
  · have hlater : Counted options t := hrun.invariant hkeep (hcounted.step hstep hok)
    exact hlater.limited
  · by_contra hnot
    obtain ⟨acts', t, hrun, hover⟩ := exists_overrun hcounted hstep hnot
    exact hover (hall acts' t hrun)

/-! ## One clock -/

/-- The pipeline is executed at the reading of its request. -/
def SameClock (s : Limiter) (act : Act) : Prop :=
  ∀ key now draw, act = .request key now draw → now = s.time

/-- No key expires before the window of a request that was let through is over. -/
structure OnTime (options : String → RateLimitOptions) (s : Limiter) : Prop where
  past : ∀ a ∈ s.admitted, a.now ≤ s.time
  kept : ∀ a ∈ s.admitted, ∀ e, (s.sets a.key).expiresAt = some e →
    a.now + (options a.key.1).windowMs ≤ e

theorem OnTime.expiresInTime (h : OnTime options s) (hclock : SameClock s act) :
    ExpiresInTime options s act := by
  rintro key now draw rfl hexpired a ha rfl
  obtain rfl := hclock a.key now draw rfl
  obtain ⟨e, he, hlt⟩ := (Option.any_eq_true _ _).mp hexpired
  have hend := (h.kept a ha e he).trans_lt (of_decide_eq_true hlt)
  exact le_sub_iff_add_le.mpr hend.le

theorem OnTime.step (h : OnTime options s) (hstep : Steps options s act s')
    (hclock : SameClock s act) : OnTime options s' := by
  unfold Steps Limiter.step at hstep
  cases act with
  | elapse ms =>
      cases hstep
      exact ⟨fun a ha => (h.past a ha).trans (Int.le_add_of_nonneg_right (Int.natCast_nonneg ms)),
        h.kept⟩
  | request key now draw =>
      obtain rfl := hclock key now draw rfl
      dsimp only at hstep
      split at hstep
      · cases hstep
        have hkept : ∀ a : Admission, a.now ≤ s.time → (a ∈ s.admitted ∨ a.key = key) → ∀ e,
            (Function.update s.sets key
              ((s.sets key).hit s.time (options key.1).windowMs s.time (s.time, draw)).2
                a.key).expiresAt = some e → a.now + (options a.key.1).windowMs ≤ e := by
          intro a hle hmem e he
          by_cases hkey : a.key = key
          · subst hkey
            rw [Function.update_self] at he
            cases he
            exact Int.add_le_add_right hle _
          · rw [Function.update_of_ne hkey] at he
            exact h.kept a (hmem.resolve_right hkey) e he
        unfold Limiter.rateLimit
        dsimp only
        split
        · exact ⟨h.past, fun a ha => hkept a (h.past a ha) (.inl ha)⟩
        · refine ⟨fun a ha => ?_, fun a ha => ?_⟩
          · obtain rfl | ha := List.mem_cons.mp ha
            · exact le_refl s.time
            · exact h.past a ha
          · obtain rfl | ha := List.mem_cons.mp ha
            · exact hkept _ (le_refl s.time) (.inr rfl)
            · exact hkept a (h.past a ha) (.inl ha)
      · cases hstep

/-- If Redis executes every pipeline at the reading of its request, the limit holds. -/
theorem limited_of_sameClock {acts : List Act}
    (h : Run (Guarded (Steps options) SameClock) {} acts s) : Limited options s := by
  have hkeep : ∀ s act t, Counted options s ∧ OnTime options s →
      Guarded (Steps options) SameClock s act t → Counted options t ∧ OnTime options t :=
    fun _ _ _ hs hstep =>
      ⟨hs.1.step hstep.1 (hs.2.expiresInTime hstep.2), hs.2.step hstep.1 hstep.2⟩
  exact (h.invariant hkeep ⟨counted_start, nofun, nofun⟩).1.limited

end

/-! ## A request that is late -/

def sampleOptions (_ : String) : RateLimitOptions := ⟨1, 60000, by decide⟩

def authKey : Key := ("auth", "203.0.113.7")

/-- One request, let through. -/
def afterFirst : Limiter := ({} : Limiter).rateLimit sampleOptions authKey 0 (0, 1)

theorem rateLimit_afterFirst :
    Limited sampleOptions afterFirst ∧ ∀ act s', Steps sampleOptions afterFirst act s' →
      (ExpiresInTime sampleOptions afterFirst act ↔
        ∀ acts' t, Run (Guarded (Steps sampleOptions) (ExpiresInTime sampleOptions)) s' acts' t →
          Limited sampleOptions t) := by
  have hstep : Steps sampleOptions {} (.request authKey 0 1) afterFirst := rfl
  refine rateLimit_iff_expiresInTime (.cons ⟨hstep, ?_⟩ (.nil _))
  intro _ _ _ _ hexpired
  cases hexpired

/-- At every position of the window at most the limit is let through. -/
def AlwaysLimited : Prop :=
  ∀ (options : String → RateLimitOptions) (acts : List Act) (s : Limiter),
    Run (Steps options) {} acts s → Limited options s

/-- The second request reads the clock a millisecond before the window of the first one is over;
its pipeline is executed two milliseconds later, and finds the key expired. -/
def lateRequest : List Act := [.request authKey 0 1, .elapse 60001, .request authKey 59999 2]

def sampleStep (act : Act) (s : Limiter) : Option Limiter := s.step sampleOptions act

theorem not_alwaysLimited : ¬ AlwaysLimited := by
  intro hlimited
  have hlate := hlimited sampleOptions _ _ (run_tried sampleStep lateRequest {}) authKey 0
  revert hlate
  decide +kernel

end Neonfi.Http
