import Neonfi.Ledger.Sessions

/-!
# What one statement of a session can do

Every statement leaves the committed rows, the other sessions and their locks alone; the
cases below say what it does to its own session.
-/

namespace Neonfi.Ledger

open Lib

/-! ## Sums of entries -/

/-- What rows of either detail table add to a holding. -/
def net (key : ℕ × ℕ) (entries : List Entry) : ℚ :=
  moved .native key entries + moved .erc20 key entries

theorem moved_append {table : DetailTable} {key : ℕ × ℕ} {xs ys : List Entry} :
    moved table key (xs ++ ys) = moved table key xs + moved table key ys := by
  unfold moved
  rw [List.filter_append, List.map_append, List.sum_append]

theorem net_append {key : ℕ × ℕ} {xs ys : List Entry} :
    net key (xs ++ ys) = net key xs + net key ys := by
  unfold net
  rw [moved_append, moved_append]
  ring

theorem moved_eq_zero {table : DetailTable} {key : ℕ × ℕ} {entries : List Entry}
    (h : ∀ e ∈ entries, e.key ≠ key) : moved table key entries = 0 := by
  have hnone : entries.filter (fun e => e.table = table ∧ e.key = key) = [] := by
    rw [List.filter_eq_nil_iff]
    intro e he
    simp [h e he]
  unfold moved
  rw [hnone]
  rfl

theorem net_eq_zero {key : ℕ × ℕ} {entries : List Entry} (h : ∀ e ∈ entries, e.key ≠ key) :
    net key entries = 0 := by
  unfold net
  rw [moved_eq_zero h, moved_eq_zero h, add_zero]

@[simp] theorem net_nil {key : ℕ × ℕ} : net key [] = 0 := net_eq_zero (by simp)

theorem net_singleton {e : Entry} : net e.key [e] = e.signed := by
  unfold net moved
  cases htable : e.table <;> simp [htable]

section OnGrid

variable {N : Numeric}

theorem onGrid_signed {e : Entry} (h : N.OnGrid e.amount) : N.OnGrid e.signed := by
  unfold Entry.signed
  cases e.direction with
  | buy => exact h
  | sell => exact h.neg
  | transfer => exact N.onGrid_zero

theorem onGrid_moved {table : DetailTable} {key : ℕ × ℕ} {entries : List Entry}
    (h : ∀ e ∈ entries, N.OnGrid e.amount) : N.OnGrid (moved table key entries) := by
  apply Numeric.onGrid_sum
  intro x hx
  obtain ⟨e, he, rfl⟩ := List.mem_map.mp hx
  exact onGrid_signed (h e (List.mem_of_mem_filter he))

theorem onGrid_net {key : ℕ × ℕ} {entries : List Entry}
    (h : ∀ e ∈ entries, N.OnGrid e.amount) : N.OnGrid (net key entries) :=
  (onGrid_moved h).add (onGrid_moved h)

end OnGrid

/-! ## The quantity of a holding -/

namespace Store

variable (st : Store) (key : ℕ × ℕ)

def opening : ℚ := ((st.holding key).map Holding.openingBalance).getD 0

/-- The opening lot and every committed row. -/
def qty : ℚ := st.opening key + net key st.entries

/-- The stored balance is the one a recalculation leaves. -/
structure Settled (N : Numeric) : Prop where
  grid : N.OnGrid (st.qty key)
  balance : ∀ h, st.holding key = some h → h.balance = N.fix (st.qty key)

variable {st key}

theorem Settled.balance_eq {N : Numeric} {h : Holding} (hsettled : st.Settled key N)
    (hrow : st.holding key = some h) : h.balance = st.qty key :=
  (hsettled.balance h hrow).trans hsettled.grid

theorem opening_of_holding {h : Holding} (hrow : st.holding key = some h) :
    st.opening key = h.openingBalance := by
  unfold opening
  rw [hrow]
  rfl

theorem opening_of_none (hrow : st.holding key = none) : st.opening key = 0 := by
  unfold opening
  rw [hrow]
  rfl

end Store

/-! ## Steps of one session -/

namespace State

variable {s s' : State} {i : ℕ} {c : Session} {key : ℕ × ℕ}

@[simp] theorem store_put : (s.put i c).store = s.store := rfl

@[simp] theorem store_take : (s.take i key).store = s.store := rfl

@[simp] theorem store_close : (s.close i).store = s.store := rfl

@[simp] theorem locks_put : (s.put i c).locks = s.locks := rfl

@[simp] theorem locks_take_self : (s.take i key).locks key = some i := Function.update_self ..

theorem locks_take_of_ne {key' : ℕ × ℕ} (h : key' ≠ key) :
    (s.take i key).locks key' = s.locks key' := Function.update_of_ne h ..

@[simp] theorem sessions_put_self : (s.put i c).sessions i = some c := Function.update_self ..

@[simp] theorem sessions_close_self : (s.close i).sessions i = none := Function.update_self ..

/-- What a statement can do; `c` is the session without it.  The last index is the session
afterwards. -/
inductive Executed (s : State) (i : ℕ) (c : Session) :
    Stmt → State → Option Session → Prop
  | lockMissing {key : ℕ × ℕ} : s.row c key = none →
      Executed s i c (.lock key) (s.put i c) (some c)
  | lock {key : ℕ × ℕ} : (s.row c key).isSome → s.Free i key →
      Executed s i c (.lock key) ((s.take i key).put i c) (some c)
  | check {key : ℕ × ℕ} {amount : ℚ} {h : Holding} : s.row c key = some h →
      amount ≤ h.balance → Executed s i c (.check key amount) (s.put i c) (some c)
  | found {key : ℕ × ℕ} : (s.row c key).isSome →
      Executed s i c (.ensureAsset key) (s.put i c) (some c)
  | missing {key : ℕ × ℕ} {c' : Session} : s.row c key = none →
      c' = { c with todo := .createAsset key :: c.todo } →
      Executed s i c (.ensureAsset key) (s.put i c') (some c')
  | create {key : ℕ × ℕ} {c' : Session} : s.row c key = none → s.Free i key →
      c' = { c with own := Function.update c.own key (some {}) } →
      Executed s i c (.createAsset key) ((s.take i key).put i c') (some c')
  | insert {entry : Entry} {c' : Session} : c' = { c with inserted := c.inserted ++ [entry] } →
      Executed s i c (.insert entry) (s.put i c') (some c')
  | refused {stmt : Stmt} : Executed s i c stmt (s.close i) none

theorem Executed.of_exec {stmt : Stmt} (h : s.exec i c stmt = some s') :
    Executed s i c stmt s' (s'.sessions i) := by
  cases stmt with
  | lock key =>
      rw [State.exec] at h
      split at h
      · next hrow =>
          cases h
          rw [sessions_put_self]
          exact .lockMissing (Option.isNone_iff_eq_none.mp hrow)
      · next hrow =>
          split at h
          · next hfree =>
              cases h
              rw [sessions_put_self]
              exact .lock (by simpa [Option.isSome_iff_ne_none] using hrow) hfree
          · cases h
  | check key amount =>
      rw [State.exec] at h
      split at h
      · next hrow =>
          split at h
          · next hle =>
              cases h
              rw [sessions_put_self]
              exact .check hrow hle
          · cases h
            rw [sessions_close_self]
            exact .refused
      · cases h
        rw [sessions_close_self]
        exact .refused
  | ensureAsset key =>
      rw [State.exec] at h
      split at h
      · next hrow =>
          cases h
          rw [sessions_put_self]
          exact .found hrow
      · next hrow =>
          cases h
          rw [sessions_put_self]
          exact .missing (by simpa using hrow) rfl
  | createAsset key =>
      rw [State.exec] at h
      split at h
      · cases h
        rw [sessions_close_self]
        exact .refused
      · next hrow =>
          split at h
          · next hfree =>
              cases h
              rw [sessions_put_self]
              exact .create (by simpa using hrow) hfree rfl
          · cases h
  | insert entry =>
      cases h
      rw [sessions_put_self]
      exact .insert rfl

/-- What a statement of the recalculation of `key` can do. -/
inductive Recalculated (N : Numeric) (s : State) (i : ℕ) (c : Session) (key : ℕ × ℕ)
    (rest : List (ℕ × ℕ)) : State → Session → Prop
  | lockMissing {c' : Session} : c.stage = .lock → s.row c key = none →
      c' = { c with stage := .readAsset } → Recalculated N s i c key rest (s.put i c') c'
  | lock {c' : Session} : c.stage = .lock → (s.row c key).isSome → s.Free i key →
      c' = { c with stage := .readAsset } →
      Recalculated N s i c key rest ((s.take i key).put i c') c'
  | opening {c' : Session} {h : Holding} : c.stage = .readAsset → s.row c key = some h →
      c' = { c with stage := .readNative h.openingBalance } →
      Recalculated N s i c key rest (s.put i c') c'
  | missing {c' : Session} : c.stage ≠ .lock → s.row c key = none →
      c' = { c with recalcs := rest, stage := .lock } →
      Recalculated N s i c key rest (s.put i c') c'
  | native {c' : Session} {qty : ℚ} : c.stage = .readNative qty →
      c' = { c with
        stage := .readErc20 (qty + moved .native key (s.store.entries ++ c.inserted)) } →
      Recalculated N s i c key rest (s.put i c') c'
  | erc20 {c' : Session} {qty : ℚ} : c.stage = .readErc20 qty →
      c' = { c with
        stage := .update (qty + moved .erc20 key (s.store.entries ++ c.inserted)) } →
      Recalculated N s i c key rest (s.put i c') c'
  | update {c' : Session} {qty : ℚ} {h : Holding} : c.stage = .update qty →
      s.row c key = some h → s.Free i key →
      c' = { c with
        own := Function.update c.own key (some { h with balance := N.fix qty })
        recalcs := rest
        stage := .lock } →
      Recalculated N s i c key rest ((s.take i key).put i c') c'

theorem Recalculated.of_recalc {N : Numeric} {rest : List (ℕ × ℕ)}
    (h : s.recalc i N c key rest = some s') :
    ∃ c', s'.sessions i = some c' ∧ Recalculated N s i c key rest s' c' := by
  unfold State.recalc at h
  split at h
  · next hstage =>
      split at h
      · next hrow =>
          cases h
          exact ⟨_, sessions_put_self,
            .lockMissing hstage (Option.isNone_iff_eq_none.mp hrow) rfl⟩
      · next hrow =>
          split at h
          · next hfree =>
              cases h
              have hsome : (s.row c key).isSome := by
                simpa [Option.isSome_iff_ne_none] using hrow
              exact ⟨_, sessions_put_self, .lock hstage hsome hfree rfl⟩
          · cases h
  · next hstage =>
      split at h
      · next hrow =>
          cases h
          exact ⟨_, sessions_put_self, .opening hstage hrow rfl⟩
      · next hrow =>
          cases h
          exact ⟨_, sessions_put_self, .missing (by simp [hstage]) hrow rfl⟩
  · next hstage =>
      cases h
      exact ⟨_, sessions_put_self, .native hstage rfl⟩
  · next hstage =>
      cases h
      exact ⟨_, sessions_put_self, .erc20 hstage rfl⟩
  · next hstage =>
      split at h
      · next hrow =>
          split at h
          · next hfree =>
              cases h
              exact ⟨_, sessions_put_self, .update hstage hrow hfree rfl⟩
          · cases h
      · next hrow =>
          cases h
          exact ⟨_, sessions_put_self, .missing (by simp [hstage]) hrow rfl⟩

/-- The step leaves the committed rows, the other sessions and their locks alone. -/
structure Local (i : ℕ) (s s' : State) : Prop where
  store : s'.store = s.store
  sessions : ∀ j, j ≠ i → s'.sessions j = s.sessions j
  locks : ∀ j, j ≠ i → ∀ key, s.locks key = some j → s'.locks key = some j

namespace Local

theorem put : Local i s (s.put i c) where
  store := rfl
  sessions _ hj := Function.update_of_ne hj ..
  locks _ _ _ h := h

theorem take_put (hfree : s.Free i key) : Local i s ((s.take i key).put i c) where
  store := rfl
  sessions _ hj := Function.update_of_ne hj ..
  locks j hj key' h := by
    by_cases hkey : key' = key
    · subst hkey
      rcases hfree with hnone | hown
      · rw [hnone] at h
        cases h
      · rw [hown] at h
        exact absurd (Option.some.inj h).symm hj
    · rw [locks_put, locks_take_of_ne hkey]
      exact h

theorem close : Local i s (s.close i) where
  store := rfl
  sessions _ hj := Function.update_of_ne hj ..
  locks j hj key h := by
    have hne : s.locks key ≠ some i := by
      rw [h]
      exact fun heq => hj (Option.some.inj heq)
    show (if s.locks key = some i then none else s.locks key) = some j
    rw [if_neg hne, h]

theorem exec {stmt : Stmt} {c' : Option Session} (h : Executed s i c stmt s' c') :
    Local i s s' := by
  cases h with
  | lockMissing => exact put
  | lock _ hfree => exact take_put hfree
  | check => exact put
  | found => exact put
  | missing => exact put
  | create _ hfree => exact take_put hfree
  | insert => exact put
  | refused => exact close

theorem recalc {N : Numeric} {rest : List (ℕ × ℕ)} {c' : Session}
    (h : Recalculated N s i c key rest s' c') : Local i s s' := by
  cases h with
  | lockMissing => exact put
  | lock _ _ hfree => exact take_put hfree
  | opening => exact put
  | missing => exact put
  | native => exact put
  | erc20 => exact put
  | update _ _ hfree => exact take_put hfree

theorem next {N : Numeric} (h : s.next i N c = some s') : Local i s s' := by
  unfold State.next at h
  split at h
  · exact exec (.of_exec h)
  · obtain ⟨c', -, hrecalc⟩ := Recalculated.of_recalc h
    exact recalc hrecalc
  · cases h

end Local

end State

end Neonfi.Ledger
