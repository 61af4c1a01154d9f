import Neonfi.Ledger.SessionSteps

/-!
# One holding under concurrent sessions

A session that moves a holding ends by recalculating it under its row lock, so nobody else
changes it from then on.  `Progress` says where a session stands with one holding, and
`Cover` why the quantity it will sum up pays for what it takes out.
-/

namespace Neonfi.Ledger

open Lib

/-! ## What a session still does to the holding -/

def Stmt.key : Stmt → ℕ × ℕ
  | .lock key => key
  | .check key _ => key
  | .ensureAsset key => key
  | .createAsset key => key
  | .insert entry => entry.key

def Stmt.entry? : Stmt → Option Entry
  | .insert entry => some entry
  | _ => none

namespace Session

variable (c : Session)

/-- The rows the session has inserted and those it will. -/
def entries : List Entry := c.inserted ++ c.todo.filterMap Stmt.entry?

structure WellFormed (N : Numeric) : Prop where
  grid : ∀ e ∈ c.entries, N.OnGrid e.amount
  todo : c.stage ≠ .lock → c.todo = []
  nodup : c.recalcs.Nodup

end Session

variable {N : Numeric} {k : ℕ × ℕ} {s s' : State} {i : ℕ} {c : Session}

/-- The session has created the asset row and not recalculated it yet. -/
structure Created (k : ℕ × ℕ) (s : State) (i : ℕ) (c : Session) : Prop where
  own : c.own k = some {}
  fresh : s.store.holding k = none
  locked : s.locks k = some i

/-- Why the holding will cover what the session takes out of it, before it is locked for
the recalculation. -/
inductive Cover (N : Numeric) (k : ℕ × ℕ) (s : State) (i : ℕ) (c : Session) : Prop
  | gains : (s.store.holding k).isSome → 0 ≤ net k c.entries → Cover N k s i c
  | locked : (s.row c k).isSome → s.locks k = some i →
      0 ≤ s.store.qty k + net k c.entries → Cover N k s i c
  | locking (rest : List Stmt) (amount : ℚ) : c.own k = none →
      c.todo = .lock k :: .check k amount :: rest → net k c.entries = -N.fix amount →
      Cover N k s i c
  | checking (rest : List Stmt) (amount : ℚ) : c.own k = none →
      c.todo = .check k amount :: rest → net k c.entries = -N.fix amount → Cover N k s i c
  | creating : c.own k = none → .createAsset k ∈ c.todo ∨ .ensureAsset k ∈ c.todo →
      0 ≤ net k c.entries → Cover N k s i c
  | loaded (balance : ℕ × ℕ → ℚ) : (s.store.holding k).isSome → c.loaded = some balance →
      0 ≤ balance k + net k c.entries → Cover N k s i c

/-- What the recalculation has summed up so far. -/
def StageSound (k : ℕ × ℕ) (s : State) (c : Session) : Prop :=
  match c.stage with
  | .lock => False
  | .readAsset => True
  | .readNative qty => qty = s.store.opening k
  | .readErc20 qty =>
      qty = s.store.opening k + moved .native k (s.store.entries ++ c.inserted)
  | .update qty => qty = s.store.qty k + net k c.inserted

structure Queued (N : Numeric) (k : ℕ × ℕ) (s : State) (i : ℕ) (c : Session) : Prop where
  mem : k ∈ c.recalcs
  waiting : c.recalcs.head? = some k → c.stage = .lock
  own : c.own k = none ∨ Created k s i c
  cover : Cover N k s i c

structure Reading (k : ℕ × ℕ) (s : State) (i : ℕ) (c : Session) : Prop where
  head : c.recalcs.head? = some k
  locked : s.locks k = some i
  own : c.own k = none ∨ Created k s i c
  row : (s.row c k).isSome
  funds : 0 ≤ s.store.qty k + net k c.inserted
  stage : StageSound k s c

structure Done (k : ℕ × ℕ) (s : State) (i : ℕ) (c : Session) : Prop where
  notMem : k ∉ c.recalcs
  todo : c.todo = []
  locked : s.locks k = some i
  row : ∃ h, c.own k = some h ∧ h.openingBalance = s.store.opening k ∧
    h.balance = s.store.qty k + net k c.inserted ∧ 0 ≤ h.balance

/-- The session never touches the holding. -/
structure Apart (k : ℕ × ℕ) (c : Session) : Prop where
  notMem : k ∉ c.recalcs
  todo : ∀ stmt ∈ c.todo, stmt.key ≠ k
  own : c.own k = none
  inserted : ∀ e ∈ c.inserted, e.key ≠ k

inductive Progress (N : Numeric) (k : ℕ × ℕ) (s : State) (i : ℕ) (c : Session) : Prop
  | apart : Apart k c → Progress N k s i c
  | queued : Queued N k s i c → Progress N k s i c
  | reading : Reading k s i c → Progress N k s i c
  | done : Done k s i c → Progress N k s i c

/-! ### Steps of the other sessions -/

/-- A step of somebody else: the row stays, and nothing changes while this session holds
its lock. -/
structure Undisturbed (k : ℕ × ℕ) (i : ℕ) (s s' : State) : Prop where
  kept : (s.store.holding k).isSome → (s'.store.holding k).isSome
  locks : s.locks k = some i → s'.locks k = some i
  holding : s.locks k = some i → s'.store.holding k = s.store.holding k
  moved : s.locks k = some i → ∀ table,
    Ledger.moved table k s'.store.entries = Ledger.moved table k s.store.entries

namespace Undisturbed

theorem opening (h : Undisturbed k i s s') (hlocked : s.locks k = some i) :
    s'.store.opening k = s.store.opening k := by
  unfold Store.opening
  rw [h.holding hlocked]

theorem qty (h : Undisturbed k i s s') (hlocked : s.locks k = some i) :
    s'.store.qty k = s.store.qty k := by
  unfold Store.qty net
  rw [h.opening hlocked, h.moved hlocked, h.moved hlocked]

theorem row (h : Undisturbed k i s s') (hlocked : s.locks k = some i) :
    s'.row c k = s.row c k := by
  unfold State.row
  rw [h.holding hlocked]

theorem created (h : Undisturbed k i s s') (hc : Created k s i c) : Created k s' i c where
  own := hc.own
  fresh := (h.holding hc.locked).trans hc.fresh
  locked := h.locks hc.locked

theorem cover (h : Undisturbed k i s s') (hcover : Cover N k s i c) : Cover N k s' i c := by
  cases hcover with
  | gains hrow hnet => exact .gains (h.kept hrow) hnet
  | locked hrow hlocked hfunds =>
      refine .locked ?_ (h.locks hlocked) ?_
      · rw [h.row hlocked]
        exact hrow
      · rw [h.qty hlocked]
        exact hfunds
  | locking rest amount hown htodo hnet => exact .locking rest amount hown htodo hnet
  | checking rest amount hown htodo hnet => exact .checking rest amount hown htodo hnet
  | creating hown htodo hnet => exact .creating hown htodo hnet
  | loaded balance hrow hloaded hfunds => exact .loaded balance (h.kept hrow) hloaded hfunds

theorem stageSound (h : Undisturbed k i s s') (hlocked : s.locks k = some i)
    (hstage : StageSound k s c) : StageSound k s' c := by
  unfold StageSound at hstage ⊢
  cases hc : c.stage with
  | lock => simp only [hc] at hstage
  | readAsset => trivial
  | readNative qty =>
      simp only [hc] at hstage
      rw [hstage, h.opening hlocked]
  | readErc20 qty =>
      simp only [hc] at hstage
      rw [hstage, h.opening hlocked, moved_append, moved_append, h.moved hlocked]
  | update qty =>
      simp only [hc] at hstage
      rw [hstage, h.qty hlocked]

theorem progress (h : Undisturbed k i s s') (hp : Progress N k s i c) : Progress N k s' i c := by
  cases hp with
  | apart ha => exact .apart ha
  | queued hq =>
      exact .queued
        { mem := hq.mem
          waiting := hq.waiting
          own := hq.own.imp_right h.created
          cover := h.cover hq.cover }
  | reading hr =>
      exact .reading
        { head := hr.head
          locked := h.locks hr.locked
          own := hr.own.imp_right h.created
          row := by
            rw [h.row hr.locked]
            exact hr.row
          funds := by
            rw [h.qty hr.locked]
            exact hr.funds
          stage := h.stageSound hr.locked hr.stage }
  | done hd =>
      obtain ⟨row, hown, hopening, hbalance, hpos⟩ := hd.row
      exact .done
        { notMem := hd.notMem
          todo := hd.todo
          locked := h.locks hd.locked
          row := ⟨row, hown, by rw [hopening, h.opening hd.locked],
            by rw [hbalance, h.qty hd.locked], hpos⟩ }

end Undisturbed

theorem State.Local.undisturbed {j : ℕ} (h : State.Local j s s') (hne : i ≠ j) :
    Undisturbed k i s s' where
  kept hrow := by
    rw [h.store]
    exact hrow
  locks hlocked := h.locks i hne k hlocked
  holding _ := by rw [h.store]
  moved _ _ := by rw [h.store]

/-! ### Steps of the session itself -/

/-- What a check or a creation needs of the state before it: the balance a check accepts was
read under its lock, and the rows left over from a removed asset do not oversell it. -/
def Stmt.Safe (s : State) (i : ℕ) (c : Session) : Stmt → Prop
  | .check key amount => ∀ h ∈ s.row c key, amount ≤ h.balance → s.locks key = some i
  | .createAsset key => 0 ≤ net key s.store.entries
  | _ => True

section Executed

variable {stmt : Stmt} {rest : List Stmt} {c' : Session}

theorem entries_pop (htodo : c.todo = stmt :: rest) (hnone : stmt.entry? = none) :
    ({ c with todo := rest } : Session).entries = c.entries := by
  unfold Session.entries
  rw [htodo, List.filterMap_cons_none hnone]

namespace State.Executed

theorem frame (htodo : c.todo = stmt :: rest)
    (hexec : Executed s i { c with todo := rest } stmt s' (some c')) :
    c'.entries = c.entries ∧ c'.recalcs = c.recalcs ∧ c'.stage = c.stage ∧
      c'.loaded = c.loaded := by
  cases hexec with
  | lockMissing => exact ⟨entries_pop htodo rfl, rfl, rfl, rfl⟩
  | lock => exact ⟨entries_pop htodo rfl, rfl, rfl, rfl⟩
  | check => exact ⟨entries_pop htodo rfl, rfl, rfl, rfl⟩
  | found => exact ⟨entries_pop htodo rfl, rfl, rfl, rfl⟩
  | missing _ hc' =>
      subst hc'
      exact ⟨entries_pop htodo rfl, rfl, rfl, rfl⟩
  | create _ _ hc' =>
      subst hc'
      exact ⟨entries_pop htodo rfl, rfl, rfl, rfl⟩
  | insert hc' =>
      subst hc'
      refine ⟨?_, rfl, rfl, rfl⟩
      show (c.inserted ++ [_]) ++ rest.filterMap Stmt.entry? =
        c.inserted ++ c.todo.filterMap Stmt.entry?
      rw [htodo, List.append_assoc]
      rfl

theorem wellFormed (htodo : c.todo = stmt :: rest)
    (hexec : Executed s i { c with todo := rest } stmt s' (some c')) (hwf : c.WellFormed N) :
    c'.WellFormed N := by
  obtain ⟨hentries, hrecalcs, hstage, -⟩ := hexec.frame htodo
  have hlock : c.stage = .lock := by
    by_contra hne
    have hnil := hwf.todo hne
    rw [htodo] at hnil
    cases hnil
  exact
    { grid := by
        rw [hentries]
        exact hwf.grid
      todo := fun hne => absurd (hstage.trans hlock) hne
      nodup := by
        rw [hrecalcs]
        exact hwf.nodup }

theorem locks (hexec : Executed s i c stmt s' (some c')) (hlocked : s.locks k = some i) :
    s'.locks k = some i := by
  have htake : ∀ {key : ℕ × ℕ} {d : Session}, ((s.take i key).put i d).locks k = some i := by
    intro key d
    by_cases hkey : k = key
    · subst hkey
      exact State.locks_take_self
    · rw [State.locks_put, State.locks_take_of_ne hkey, hlocked]
  cases hexec with
  | lockMissing => exact hlocked
  | lock => exact htake
  | check => exact hlocked
  | found => exact hlocked
  | missing => exact hlocked
  | create => exact htake
  | insert => exact hlocked

/-- The session's own row changes only when it creates the asset. -/
theorem own (hexec : Executed s i c stmt s' (some c')) (hne : stmt ≠ .createAsset k) :
    c'.own k = c.own k := by
  cases hexec with
  | lockMissing => rfl
  | lock => rfl
  | check => rfl
  | found => rfl
  | missing _ hc' => rw [hc']
  | create _ _ hc' =>
      rw [hc']
      exact Function.update_of_ne (fun heq => hne (by rw [heq])) ..
  | insert hc' => rw [hc']

/-- Statements that are still to run stay. -/
theorem mem_todo (hexec : Executed s i c stmt s' (some c')) {x : Stmt} (hx : x ∈ c.todo) :
    x ∈ c'.todo := by
  cases hexec with
  | lockMissing => exact hx
  | lock => exact hx
  | check => exact hx
  | found => exact hx
  | missing _ hc' =>
      rw [hc']
      exact List.mem_cons_of_mem _ hx
  | create _ _ hc' =>
      rw [hc']
      exact hx
  | insert hc' =>
      rw [hc']
      exact hx

theorem row (hexec : Executed s i c stmt s' (some c')) (hne : stmt ≠ .createAsset k) :
    s'.row c' k = s.row c k := by
  unfold State.row
  rw [hexec.own hne, (State.Local.exec hexec).store]

theorem created (hexec : Executed s i c stmt s' (some c')) (hne : stmt ≠ .createAsset k)
    (h : Created k s i c) : Created k s' i c' where
  own := (hexec.own hne).trans h.own
  fresh := by
    rw [(State.Local.exec hexec).store]
    exact h.fresh
  locked := hexec.locks h.locked

/-- A statement that is neither a check nor a creation of the holding keeps it covered. -/
theorem cover (htodo : c.todo = stmt :: rest)
    (hexec : Executed s i { c with todo := rest } stmt s' (some c'))
    (hcheck : ∀ amount, stmt ≠ .check k amount) (hcreate : stmt ≠ .createAsset k)
    (hcover : Cover N k s i c) : Cover N k s' i c' := by
  obtain ⟨hentries, -, -, hloaded⟩ := hexec.frame htodo
  have hstore := (State.Local.exec hexec).store
  have hown : c'.own k = c.own k := hexec.own hcreate
  cases hcover with
  | gains hrow hnet =>
      exact .gains (by rwa [hstore]) (by rwa [hentries])
  | locked hrow hlocked hfunds =>
      refine .locked ?_ (hexec.locks hlocked) (by rwa [hstore, hentries])
      rw [hexec.row hcreate]
      exact hrow
  | locking rest' amount hnone hlocking hnet =>
      obtain ⟨hstmt, hrest⟩ := List.cons.inj (htodo.symm.trans hlocking)
      subst hstmt hrest
      refine .checking rest' amount (hown.trans hnone) ?_ (by rwa [hentries])
      cases hexec with
      | lockMissing => rfl
      | lock => rfl
  | checking rest' amount hnone hchecking hnet =>
      obtain ⟨hstmt, -⟩ := List.cons.inj (htodo.symm.trans hchecking)
      exact absurd hstmt (hcheck amount)
  | creating hnone hahead hnet =>
      have hnet' : 0 ≤ net k c'.entries := by rwa [hentries]
      rw [htodo, List.mem_cons, List.mem_cons] at hahead
      rcases hahead with (heq | hmem) | (heq | hmem)
      · exact absurd heq.symm hcreate
      · exact .creating (hown.trans hnone) (.inl (hexec.mem_todo hmem)) hnet'
      · subst heq
        cases hexec with
        | found hrow =>
            refine .gains ?_ hnet'
            unfold State.row at hrow
            rwa [show ({ c with todo := rest } : Session).own k = none from hnone,
              Option.none_or] at hrow
        | missing hrow hc' =>
            refine .creating (hown.trans hnone) (.inl ?_) hnet'
            rw [hc']
            exact List.mem_cons_self
      · exact .creating (hown.trans hnone) (.inr (hexec.mem_todo hmem)) hnet'
  | loaded balance hrow hbalance hfunds =>
      exact .loaded balance (by rwa [hstore]) (hloaded.trans hbalance) (by rwa [hentries])

/-- A check that passes under the lock shows that the holding covers the sale. -/
theorem cover_check {amount : ℚ} (htodo : c.todo = .check k amount :: rest)
    (hexec : Executed s i { c with todo := rest } (.check k amount) s' (some c'))
    (hsettled : s.store.Settled k N)
    (hsafe : (Stmt.check k amount).Safe s i c)
    (hcover : Cover N k s i c) : Cover N k s' i c' := by
  obtain ⟨hentries, -, -, hloaded⟩ := hexec.frame htodo
  cases hexec with
  | @check _ _ h hrow hle =>
      replace hrow : s.row c k = some h := hrow
      cases hcover with
      | gains hheld hnet => exact .gains hheld (by rwa [hentries])
      | locked hheld hlocked hfunds => exact .locked hheld hlocked (by rwa [hentries])
      | locking rest' amount' _ hlocking =>
          obtain ⟨hstmt, -⟩ := List.cons.inj (htodo.symm.trans hlocking)
          cases hstmt
      | checking rest' amount' hnone hchecking hnet =>
          obtain ⟨hstmt, -⟩ := List.cons.inj (htodo.symm.trans hchecking)
          cases hstmt
          have hheld : s.store.holding k = some h := by
            unfold State.row at hrow
            rwa [hnone, Option.none_or] at hrow
          have hqty := hsettled.balance_eq hheld
          have hfix : N.fix amount ≤ s.store.qty k :=
            Numeric.fix_le_of_le hsettled.grid (hqty ▸ hle)
          refine .locked ?_ (hsafe h hrow hle) ?_
          · show (s.row c k).isSome
            rw [hrow]
            rfl
          · rw [hentries, hnet]
            show 0 ≤ s.store.qty k + -N.fix amount
            linarith
      | creating hnone hahead hnet =>
          rw [htodo] at hahead
          refine .creating hnone (hahead.imp ?_ ?_) (by rwa [hentries])
          · intro hmem
            exact (List.mem_cons.mp hmem).resolve_left (by simp)
          · intro hmem
            exact (List.mem_cons.mp hmem).resolve_left (by simp)
      | loaded balance hheld hbalance hfunds =>
          exact .loaded balance hheld hbalance (by rwa [hentries])

/-- A created holding covers a session that only adds to it. -/
theorem cover_create (htodo : c.todo = .createAsset k :: rest)
    (hexec : Executed s i { c with todo := rest } (.createAsset k) s' (some c'))
    (hsafe : (Stmt.createAsset k).Safe s i c) (hcover : Cover N k s i c) :
    Created k s' i c' ∧ Cover N k s' i c' := by
  obtain ⟨hentries, -, -, -⟩ := hexec.frame htodo
  cases hexec with
  | create hrow hfree hc' =>
      have hboth : c.own k = none ∧ s.store.holding k = none :=
        Option.or_eq_none_iff.mp hrow
      have hcreated : Created k ((s.take i k).put i c') i c' :=
        { own := by
            rw [hc']
            exact Function.update_self ..
          fresh := hboth.2
          locked := State.locks_take_self }
      refine ⟨hcreated, .locked ?_ hcreated.locked ?_⟩
      · unfold State.row
        rw [hcreated.own]
        rfl
      · have hleft : 0 ≤ s.store.qty k := by
          unfold Store.qty
          rw [Store.opening_of_none hboth.2, zero_add]
          exact hsafe
        have hnet : 0 ≤ net k c.entries := by
          cases hcover with
          | gains hheld =>
              rw [hboth.2] at hheld
              cases hheld
          | locked hheld =>
              replace hheld : (s.row c k).isSome := hheld
              rw [show s.row c k = none from hrow] at hheld
              cases hheld
          | locking rest' amount _ hlocking =>
              cases (List.cons.inj (htodo.symm.trans hlocking)).1
          | checking rest' amount _ hchecking =>
              cases (List.cons.inj (htodo.symm.trans hchecking)).1
          | creating _ _ hnet => exact hnet
          | loaded balance hheld =>
              rw [hboth.2] at hheld
              cases hheld
        rw [hentries]
        show 0 ≤ s.store.qty k + net k c.entries
        linarith

theorem apart (htodo : c.todo = stmt :: rest)
    (hexec : Executed s i { c with todo := rest } stmt s' (some c')) (h : Apart k c) :
    Apart k c' := by
  obtain ⟨-, hrecalcs, -, -⟩ := hexec.frame htodo
  have hkey : stmt.key ≠ k := h.todo stmt (htodo ▸ List.mem_cons_self)
  have hrest : ∀ x ∈ rest, x.key ≠ k := fun x hx => h.todo x (htodo ▸ List.mem_cons_of_mem _ hx)
  have hne : stmt ≠ .createAsset k := fun heq => hkey (by rw [heq]; rfl)
  refine
    { notMem := by
        rw [hrecalcs]
        exact h.notMem
      todo := ?_
      own := (hexec.own hne).trans h.own
      inserted := ?_ }
  · cases hexec with
    | lockMissing => exact hrest
    | lock => exact hrest
    | check => exact hrest
    | found => exact hrest
    | missing _ hc' =>
        subst hc'
        intro x hx
        rcases List.mem_cons.mp hx with rfl | hx
        · exact hkey
        · exact hrest x hx
    | create _ _ hc' =>
        subst hc'
        exact hrest
    | insert hc' =>
        subst hc'
        exact hrest
  · cases hexec with
    | lockMissing => exact h.inserted
    | lock => exact h.inserted
    | check => exact h.inserted
    | found => exact h.inserted
    | missing _ hc' =>
        subst hc'
        exact h.inserted
    | create _ _ hc' =>
        subst hc'
        exact h.inserted
    | insert hc' =>
        subst hc'
        intro e he
        rcases List.mem_append.mp he with he | he
        · exact h.inserted e he
        · rw [List.mem_singleton.mp he]
          exact hkey

theorem queued (htodo : c.todo = stmt :: rest)
    (hexec : Executed s i { c with todo := rest } stmt s' (some c'))
    (hsettled : s.store.Settled k N) (hsafe : stmt.Safe s i c) (h : Queued N k s i c) :
    Queued N k s' i c' := by
  obtain ⟨-, hrecalcs, hstage, -⟩ := hexec.frame htodo
  have hmem : k ∈ c'.recalcs := hrecalcs ▸ h.mem
  have hwaiting : c'.recalcs.head? = some k → c'.stage = .lock := by
    rw [hrecalcs, hstage]
    exact h.waiting
  by_cases hcreate : stmt = .createAsset k
  · subst hcreate
    obtain ⟨hcreated, hcover⟩ := hexec.cover_create htodo hsafe h.cover
    exact ⟨hmem, hwaiting, .inr hcreated, hcover⟩
  · have hown : c'.own k = none ∨ Created k s' i c' := by
      refine h.own.imp (fun hnone => (hexec.own hcreate).trans hnone) fun hc => ?_
      exact hexec.created hcreate ⟨hc.own, hc.fresh, hc.locked⟩
    refine ⟨hmem, hwaiting, hown, ?_⟩
    by_cases hcheck : ∃ amount, stmt = .check k amount
    · obtain ⟨amount, rfl⟩ := hcheck
      exact hexec.cover_check htodo hsettled hsafe h.cover
    · exact hexec.cover htodo (fun amount heq => hcheck ⟨amount, heq⟩) hcreate h.cover

theorem progress (htodo : c.todo = stmt :: rest)
    (hexec : Executed s i { c with todo := rest } stmt s' (some c')) (hwf : c.WellFormed N)
    (hsettled : s.store.Settled k N) (hsafe : stmt.Safe s i c) (h : Progress N k s i c) :
    Progress N k s' i c' := by
  cases h with
  | apart ha => exact .apart (hexec.apart htodo ha)
  | queued hq => exact .queued (hexec.queued htodo hsettled hsafe hq)
  | reading hr =>
      have hstage : c.stage ≠ .lock := by
        intro hlock
        have hsound := hr.stage
        unfold StageSound at hsound
        rw [hlock] at hsound
        exact hsound
      have hnil := hwf.todo hstage
      rw [htodo] at hnil
      cases hnil
  | done hd =>
      have hnil := hd.todo
      rw [htodo] at hnil
      cases hnil

end State.Executed

end Executed

/-! ### Steps of a recalculation -/

/-- What a bulk import needs when it locks a holding that it takes out of: the balance has
not dropped below the one it loaded. -/
def Session.Fresh (s : State) (c : Session) (key : ℕ × ℕ) : Prop :=
  c.stage = .lock → ∀ balance ∈ c.loaded, net key c.inserted < 0 →
    balance key ≤ s.store.balance key

section Recalculated

variable {key : ℕ × ℕ} {rest : List (ℕ × ℕ)} {c' : Session}

theorem entries_of_nil (htodo : c.todo = []) : c.entries = c.inserted := by
  unfold Session.entries
  rw [htodo]
  exact List.append_nil _

theorem row_eq_of_own (hnone : c.own k = none) : s.row c k = s.store.holding k := by
  unfold State.row
  rw [hnone, Option.none_or]

theorem opening_of_row (hown : c.own k = none ∨ Created k s i c) {h : Holding}
    (hrow : s.row c k = some h) : h.openingBalance = s.store.opening k := by
  rcases hown with hnone | hcreated
  · rw [row_eq_of_own hnone] at hrow
    exact (Store.opening_of_holding hrow).symm
  · unfold State.row at hrow
    rw [hcreated.own] at hrow
    cases hrow
    rw [Store.opening_of_none hcreated.fresh]

/-- The covered holding is there, and what it holds pays for the session. -/
theorem Cover.pays (hcover : Cover N k s i c) (htodo : c.todo = [])
    (hsettled : s.store.Settled k N)
    (hpos : ∀ h, s.store.holding k = some h → 0 ≤ h.balance) (hstage : c.stage = .lock)
    (hfresh : c.Fresh s k) :
    (s.row c k).isSome ∧ 0 ≤ s.store.qty k + net k c.inserted := by
  have hheld : ∀ h, s.store.holding k = some h → (s.row c k).isSome := by
    intro h hrow
    unfold State.row
    rw [hrow, Option.isSome_or]
    simp
  rw [← entries_of_nil htodo]
  cases hcover with
  | gains hsome hnet =>
      obtain ⟨h, hrow⟩ := Option.isSome_iff_exists.mp hsome
      have hqty := hsettled.balance_eq hrow
      have hbalance := hpos h hrow
      exact ⟨hheld h hrow, by linarith⟩
  | locked hsome _ hfunds => exact ⟨hsome, hfunds⟩
  | locking _ _ _ hlocking =>
      rw [htodo] at hlocking
      cases hlocking
  | checking _ _ _ hchecking =>
      rw [htodo] at hchecking
      cases hchecking
  | creating _ hahead =>
      rw [htodo] at hahead
      simp at hahead
  | loaded balance hsome hloaded hfunds =>
      obtain ⟨h, hrow⟩ := Option.isSome_iff_exists.mp hsome
      have hqty := hsettled.balance_eq hrow
      refine ⟨hheld h hrow, ?_⟩
      rcases lt_or_ge (net k c.entries) 0 with hneg | hnonneg
      · have hle := hfresh hstage balance hloaded (entries_of_nil htodo ▸ hneg)
        unfold Store.balance at hle
        rw [hrow] at hle
        have hle' : balance k ≤ h.balance := hle
        linarith
      · have hbalance := hpos h hrow
        linarith

namespace State.Recalculated

theorem wellFormed (hrecalcs : c.recalcs = key :: rest) (htodo : c.todo = [])
    (hstep : Recalculated N s i c key rest s' c') (hwf : c.WellFormed N) :
    c'.WellFormed N := by
  have hrest : rest.Nodup := by
    have hnodup := hwf.nodup
    rw [hrecalcs] at hnodup
    exact hnodup.of_cons
  cases hstep with
  | lockMissing _ _ hc' =>
      subst hc'
      exact ⟨hwf.grid, fun _ => htodo, hwf.nodup⟩
  | lock _ _ _ hc' =>
      subst hc'
      exact ⟨hwf.grid, fun _ => htodo, hwf.nodup⟩
  | opening _ _ hc' =>
      subst hc'
      exact ⟨hwf.grid, fun _ => htodo, hwf.nodup⟩
  | missing _ _ hc' =>
      subst hc'
      exact ⟨hwf.grid, fun _ => htodo, hrest⟩
  | native _ hc' =>
      subst hc'
      exact ⟨hwf.grid, fun _ => htodo, hwf.nodup⟩
  | erc20 _ hc' =>
      subst hc'
      exact ⟨hwf.grid, fun _ => htodo, hwf.nodup⟩
  | update _ _ _ hc' =>
      subst hc'
      exact ⟨hwf.grid, fun _ => htodo, hrest⟩

/-- A recalculation of another holding. -/
theorem other (hrecalcs : c.recalcs = key :: rest) (htodo : c.todo = [])
    (hstep : Recalculated N s i c key rest s' c') (hne : k ≠ key) :
    c'.own k = c.own k ∧ c'.inserted = c.inserted ∧ c'.todo = [] ∧ c'.loaded = c.loaded ∧
      s'.locks k = s.locks k ∧ (k ∈ c'.recalcs ↔ k ∈ c.recalcs) ∧
      (c'.recalcs.head? = some k → c'.stage = .lock) := by
  have hsame : k ∈ rest ↔ k ∈ c.recalcs := by
    rw [hrecalcs, List.mem_cons]
    exact ⟨.inr, fun h => h.resolve_left hne⟩
  have hhead : c.recalcs.head? ≠ some k := by
    rw [hrecalcs]
    exact fun heq => hne (Option.some.inj heq).symm
  cases hstep with
  | lockMissing _ _ hc' =>
      subst hc'
      exact ⟨rfl, rfl, htodo, rfl, rfl, Iff.rfl, fun h => absurd h hhead⟩
  | lock _ _ _ hc' =>
      subst hc'
      exact ⟨rfl, rfl, htodo, rfl, locks_take_of_ne hne, Iff.rfl, fun h => absurd h hhead⟩
  | opening _ _ hc' =>
      subst hc'
      exact ⟨rfl, rfl, htodo, rfl, rfl, Iff.rfl, fun h => absurd h hhead⟩
  | missing _ _ hc' =>
      subst hc'
      exact ⟨rfl, rfl, htodo, rfl, rfl, hsame, fun _ => rfl⟩
  | native _ hc' =>
      subst hc'
      exact ⟨rfl, rfl, htodo, rfl, rfl, Iff.rfl, fun h => absurd h hhead⟩
  | erc20 _ hc' =>
      subst hc'
      exact ⟨rfl, rfl, htodo, rfl, rfl, Iff.rfl, fun h => absurd h hhead⟩
  | update _ _ _ hc' =>
      subst hc'
      exact ⟨Function.update_of_ne hne .., rfl, htodo, rfl, locks_take_of_ne hne, hsame,
        fun _ => rfl⟩

theorem progress_other (hrecalcs : c.recalcs = key :: rest) (htodo : c.todo = [])
    (hstep : Recalculated N s i c key rest s' c') (hne : k ≠ key) (h : Progress N k s i c) :
    Progress N k s' i c' := by
  obtain ⟨hown, hinserted, htodo', hloaded, hlocks, hmem, hwaiting⟩ :=
    hstep.other hrecalcs htodo hne
  have hstore := (State.Local.recalc hstep).store
  have hrow : s'.row c' k = s.row c k := by
    unfold State.row
    rw [hown, hstore]
  have hentries : c'.entries = c.entries := by
    rw [entries_of_nil htodo', entries_of_nil htodo, hinserted]
  cases h with
  | apart ha =>
      refine .apart ⟨fun h => ha.notMem (hmem.mp h), ?_, hown.trans ha.own, ?_⟩
      · rw [htodo']
        exact fun _ h => absurd h List.not_mem_nil
      · rw [hinserted]
        exact ha.inserted
  | queued hq =>
      refine .queued ⟨hmem.mpr hq.mem, hwaiting, ?_, ?_⟩
      · refine hq.own.imp (fun hnone => hown.trans hnone) fun hc => ?_
        exact ⟨hown.trans hc.own, hstore ▸ hc.fresh, hlocks.trans hc.locked⟩
      · cases hq.cover with
        | gains hheld hnet => exact .gains (by rwa [hstore]) (by rwa [hentries])
        | locked hheld hlocked hfunds =>
            exact .locked (by rwa [hrow]) (hlocks.trans hlocked) (by rwa [hstore, hentries])
        | locking _ _ _ hlocking =>
            rw [htodo] at hlocking
            cases hlocking
        | checking _ _ _ hchecking =>
            rw [htodo] at hchecking
            cases hchecking
        | creating _ hahead =>
            rw [htodo] at hahead
            simp at hahead
        | loaded balance hheld hbalance hfunds =>
            exact .loaded balance (by rwa [hstore]) (hloaded.trans hbalance) (by rwa [hentries])
  | reading hr =>
      have hhead := hr.head
      rw [hrecalcs] at hhead
      exact absurd (Option.some.inj hhead).symm hne
  | done hd =>
      obtain ⟨h, hrow, hopening, hbalance, hpos⟩ := hd.row
      refine .done ⟨fun h => hd.notMem (hmem.mp h), htodo', hlocks.trans hd.locked, h,
        hown.trans hrow, ?_, ?_, hpos⟩
      · rw [hopening, hstore]
      · rw [hbalance, hstore, hinserted]

theorem progress_queued (hrecalcs : c.recalcs = k :: rest) (htodo : c.todo = [])
    (hstep : Recalculated N s i c k rest s' c') (hsettled : s.store.Settled k N)
    (hpos : ∀ h, s.store.holding k = some h → 0 ≤ h.balance) (hfresh : c.Fresh s k)
    (h : Queued N k s i c) : Reading k s' i c' := by
  have hstage : c.stage = .lock := h.waiting (by rw [hrecalcs]; rfl)
  obtain ⟨hrow, hfunds⟩ := h.cover.pays htodo hsettled hpos hstage hfresh
  cases hstep with
  | lockMissing _ hnone =>
      rw [hnone] at hrow
      cases hrow
  | lock _ _ _ hc' =>
      subst hc'
      exact
        { head := by
            show c.recalcs.head? = some k
            rw [hrecalcs]
            rfl
          locked := locks_take_self
          own := h.own.imp_right fun hc => ⟨hc.own, hc.fresh, locks_take_self⟩
          row := hrow
          funds := hfunds
          stage := trivial }
  | opening hother => rw [hstage] at hother; cases hother
  | missing hother => exact absurd hstage hother
  | native hother => rw [hstage] at hother; cases hother
  | erc20 hother => rw [hstage] at hother; cases hother
  | update hother => rw [hstage] at hother; cases hother

theorem progress_reading (hrecalcs : c.recalcs = k :: rest) (hwf : c.WellFormed N)
    (hstep : Recalculated N s i c k rest s' c') (hsettled : s.store.Settled k N)
    (h : Reading k s i c) : Progress N k s' i c' := by
  have hsound := h.stage
  unfold StageSound at hsound
  have hcreated : ∀ {c' : Session}, c'.own k = c.own k →
      c'.own k = none ∨ Created k (s.put i c') i c' := by
    intro c' hown
    rw [hown]
    exact h.own.imp_right fun hc => ⟨hown.trans hc.own, hc.fresh, hc.locked⟩
  cases hstep with
  | lockMissing hlock =>
      rw [hlock] at hsound
      cases hsound
  | lock hlock =>
      rw [hlock] at hsound
      cases hsound
  | opening hstage hrow hc' =>
      subst hc'
      exact .reading
        { head := h.head
          locked := h.locked
          own := hcreated rfl
          row := h.row
          funds := h.funds
          stage := opening_of_row h.own hrow }
  | missing hstage hrow =>
      have hheld := h.row
      rw [hrow] at hheld
      cases hheld
  | native hstage hc' =>
      subst hc'
      simp only [hstage] at hsound
      exact .reading
        { head := h.head
          locked := h.locked
          own := hcreated rfl
          row := h.row
          funds := h.funds
          stage := by
            show _ = s.store.opening k + moved .native k (s.store.entries ++ c.inserted)
            rw [hsound] }
  | erc20 hstage hc' =>
      subst hc'
      simp only [hstage] at hsound
      exact .reading
        { head := h.head
          locked := h.locked
          own := hcreated rfl
          row := h.row
          funds := h.funds
          stage := by
            show _ = s.store.qty k + net k c.inserted
            unfold Store.qty
            rw [hsound, add_assoc, add_assoc, ← net_append]
            rfl }
  | @update _ qty row hstage hrow hfree hc' =>
      subst hc'
      simp only [hstage] at hsound
      have hgrid : N.OnGrid (s.store.qty k + net k c.inserted) :=
        hsettled.grid.add (onGrid_net fun e he => hwf.grid e (List.mem_append_left _ he))
      have hbalance : N.fix qty = s.store.qty k + net k c.inserted := by
        rw [hsound]
        exact hgrid
      have hnodup := hwf.nodup
      rw [hrecalcs] at hnodup
      exact .done
        { notMem := (List.nodup_cons.mp hnodup).1
          todo := hwf.todo (by simp [hstage])
          locked := locks_take_self
          row := by
            refine ⟨{ row with balance := N.fix qty }, Function.update_self .., ?_, hbalance, ?_⟩
            · show row.openingBalance = s.store.opening k
              exact opening_of_row h.own hrow
            · show 0 ≤ N.fix qty
              rw [hbalance]
              exact h.funds }

theorem progress (hrecalcs : c.recalcs = key :: rest) (htodo : c.todo = [])
    (hwf : c.WellFormed N) (hstep : Recalculated N s i c key rest s' c')
    (hsettled : s.store.Settled k N)
    (hpos : ∀ h, s.store.holding k = some h → 0 ≤ h.balance) (hfresh : c.Fresh s key)
    (h : Progress N k s i c) : Progress N k s' i c' := by
  by_cases hne : k = key
  · subst hne
    have hmem : k ∈ c.recalcs := hrecalcs ▸ List.mem_cons_self
    cases h with
    | apart ha => exact absurd hmem ha.notMem
    | queued hq =>
        exact .reading (hstep.progress_queued hrecalcs htodo hsettled hpos hfresh hq)
    | reading hr => exact hstep.progress_reading hrecalcs hwf hsettled hr
    | done hd => exact absurd hmem hd.notMem
  · exact hstep.progress_other hrecalcs htodo hne h

end State.Recalculated

end Recalculated

end Neonfi.Ledger
