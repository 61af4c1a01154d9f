import Neonfi.Ledger.Cover

/-!
# Concurrent posts and the stored balance

Any number of sessions run interleaved.  From settled, non-negative balances every
interleaving of safe steps leaves the balances non-negative; an import that runs beside a
sale of the same holding is not safe.
-/

namespace Neonfi.Ledger

open Lib

variable {N : Numeric} {k : ℕ × ℕ} {s s' : State} {i : ℕ} {c : Session}

/-! ### The transaction a request opens -/

/-- The loaded balances cover the accepted rows of an import also as they are stored. -/
def Store.CoversStored (store : Store) (N : Numeric) (p : ℕ)
    (accepted : List (BulkTrade × Bool)) : Prop :=
  ∀ a ∈ accepted, 0 ≤ store.balance (a.1.entry N p).key +
    net (a.1.entry N p).key (accepted.map fun a => a.1.entry N p)

section Begin

variable {store : Store} {p : ℕ} {js : Js} {plan : Plan}

theorem entries_insertTrade {accepted : List (BulkTrade × Bool)} :
    (accepted.flatMap (insertTrade N p)).filterMap Stmt.entry? =
      accepted.map fun a => a.1.entry N p := by
  induction accepted with
  | nil => rfl
  | cons a accepted ih =>
      rw [List.flatMap_cons, List.filterMap_append, ih, List.map_cons]
      unfold insertTrade
      cases a.2 <;> rfl

theorem key_insertTrade {a : BulkTrade × Bool} {stmt : Stmt} (h : stmt ∈ insertTrade N p a) :
    stmt.key = (a.1.entry N p).key := by
  unfold insertTrade at h
  cases ha : a.2 with
  | true =>
      simp only [ha, if_true, List.mem_cons, List.not_mem_nil, or_false] at h
      rcases h with rfl | rfl <;> rfl
  | false =>
      simp only [ha, Bool.false_eq_true, if_false, List.mem_singleton] at h
      subst h
      rfl

/-- The first accepted row of a token that is not held creates its asset. -/
theorem creates_of_accepted {tokenId : ℕ} {trades : List BulkTrade} {b : Batch}
    (hheld : b.heldTokens tokenId = false) {a : BulkTrade × Bool}
    (ha : a ∈ acceptedTrades js plan trades b) (hid : a.1.token.id = tokenId) :
    ∃ a' ∈ acceptedTrades js plan trades b, a'.2 = true ∧ a'.1.token.id = tokenId := by
  induction trades generalizing b with
  | nil => cases ha
  | cons trade trades ih =>
      rw [acceptedTrades] at ha ⊢
      cases hrow : applyRunning js plan trade.token trade.direction trade.amountCell
          trade.amount b with
      | error e =>
          rw [hrow] at ha
          exact ih hheld ha
      | ok r =>
          rw [hrow] at ha
          obtain ⟨b', createAsset⟩ := r
          by_cases htoken : trade.token.id = tokenId
          · refine ⟨(trade, createAsset), List.mem_cons_self, ?_, htoken⟩
            unfold applyRunning at hrow
            split at hrow
            · rw [htoken, hheld] at hrow
              simp only [Bool.false_eq_true, if_false] at hrow
              split at hrow
              · cases hrow
              · cases hrow
                rfl
            · rw [htoken, hheld] at hrow
              simp only [Bool.false_eq_true, not_false_eq_true, if_true] at hrow
              cases hrow
          · have hheld' : b'.heldTokens tokenId = false := by
              unfold applyRunning at hrow
              split at hrow
              · split at hrow
                · cases hrow
                  exact hheld
                · split at hrow
                  · cases hrow
                  · cases hrow
                    show Function.update b.heldTokens trade.token.id true tokenId = false
                    rw [Function.update_of_ne (Ne.symm htoken)]
                    exact hheld
              · split at hrow
                · cases hrow
                · dsimp only at hrow
                  split at hrow
                  · cases hrow
                  · cases hrow
                    exact hheld
            rcases List.mem_cons.mp ha with rfl | ha
            · exact absurd hid htoken
            · obtain ⟨a', ha', hcreates⟩ := ih hheld' ha
              exact ⟨a', List.mem_cons_of_mem _ ha', hcreates⟩

theorem onGrid_entry {trade : BulkTrade} : N.OnGrid (trade.entry N p).amount := N.onGrid_fix _

/-- A session of one holding, opened for a row that is not a sale. -/
theorem opens_single {entry : Entry} {todo : List Stmt} (hgrid : N.OnGrid entry.amount)
    (hsigned : 0 ≤ entry.signed)
    (htodo : todo = [.insert entry] ∧ (s.store.holding entry.key).isSome ∨
      todo = [.createAsset entry.key, .insert entry])
    (hc : c = { todo, recalcs := [entry.key] }) : c.WellFormed N ∧ Progress N k s i c := by
  have hentries : c.entries = [entry] := by
    subst hc
    rcases htodo with ⟨rfl, -⟩ | rfl <;> rfl
  have hkeys : ∀ stmt ∈ todo, stmt.key = entry.key := by
    rcases htodo with ⟨rfl, -⟩ | rfl <;> simp [Stmt.key]
  subst hc
  refine ⟨⟨?_, fun h => absurd rfl h, List.nodup_singleton _⟩, ?_⟩
  · rw [hentries]
    intro e he
    rw [List.mem_singleton.mp he]
    exact hgrid
  · by_cases hk : entry.key = k
    · subst hk
      refine .queued ⟨List.mem_singleton_self _, fun _ => rfl, .inl rfl, ?_⟩
      have hnet : 0 ≤ net entry.key
          ({ todo, recalcs := [entry.key] } : Session).entries := by
        rw [hentries, net_singleton]
        exact hsigned
      rcases htodo with ⟨-, hheld⟩ | rfl
      · exact .gains hheld hnet
      · exact .creating rfl (.inl List.mem_cons_self) hnet
    · refine .apart ⟨?_, fun stmt h => by rw [hkeys stmt h]; exact hk, rfl, by simp⟩
      exact fun h => hk (List.mem_singleton.mp h).symm

/-- A sale of one holding. -/
theorem opens_sell {entry : Entry} {amount : ℚ} (hdirection : entry.direction = .sell)
    (hamount : entry.amount = N.fix amount)
    (hc : c = { todo := [.lock entry.key, .check entry.key amount, .insert entry]
                recalcs := [entry.key] }) : c.WellFormed N ∧ Progress N k s i c := by
  have hentries : c.entries = [entry] := by
    subst hc
    rfl
  subst hc
  refine ⟨⟨?_, fun h => absurd rfl h, List.nodup_singleton _⟩, ?_⟩
  · rw [hentries]
    intro e he
    rw [List.mem_singleton.mp he, hamount]
    exact N.onGrid_fix _
  · by_cases hk : entry.key = k
    · subst hk
      refine .queued ⟨List.mem_singleton_self _, fun _ => rfl, .inl rfl,
        .locking _ amount rfl rfl ?_⟩
      rw [hentries, net_singleton]
      unfold Entry.signed
      rw [hdirection, hamount]
      rfl
    · refine .apart ⟨fun h => hk (List.mem_singleton.mp h).symm, ?_, rfl, by simp⟩
      intro stmt hstmt
      simp only [List.mem_cons, List.not_mem_nil, or_false] at hstmt
      rcases hstmt with rfl | rfl | rfl <;> exact hk

theorem opens_transfer {source dest : Entry} {amount : ℚ} (hkeys : source.key ≠ dest.key)
    (hsell : source.direction = .sell) (hbuy : dest.direction = .buy)
    (hsource : source.amount = N.fix amount) (hdest : dest.amount = N.fix amount)
    (hamount : 0 ≤ amount)
    (hc : c = { todo := [.lock source.key, .check source.key amount, .ensureAsset dest.key,
                  .insert source, .insert dest]
                recalcs := [source.key, dest.key] }) :
    c.WellFormed N ∧ Progress N k s i c := by
  have hentries : c.entries = [source, dest] := by
    subst hc
    rfl
  have hnet : ∀ key, net key c.entries = net key [source] + net key [dest] := by
    intro key
    rw [hentries, ← net_append]
    rfl
  have hfar : ∀ {key : ℕ × ℕ} {e : Entry}, e.key ≠ key → net key [e] = 0 := by
    intro key e hne
    apply net_eq_zero
    intro e' he'
    rw [List.mem_singleton.mp he']
    exact hne
  subst hc
  refine ⟨⟨?_, fun h => absurd rfl h, ?_⟩, ?_⟩
  · rw [hentries]
    intro e he
    simp only [List.mem_cons, List.not_mem_nil, or_false] at he
    rcases he with rfl | rfl
    · rw [hsource]
      exact N.onGrid_fix _
    · rw [hdest]
      exact N.onGrid_fix _
  · simpa using hkeys
  · by_cases hk : source.key = k
    · subst hk
      refine .queued ⟨List.mem_cons_self, fun _ => rfl, .inl rfl, .locking _ amount rfl rfl ?_⟩
      rw [hnet, net_singleton, hfar (Ne.symm hkeys), add_zero]
      unfold Entry.signed
      rw [hsell, hsource]
      rfl
    · by_cases hk' : dest.key = k
      · subst hk'
        refine .queued ⟨by simp, fun _ => rfl, .inl rfl, .creating rfl (.inr (by simp)) ?_⟩
        rw [hnet, net_singleton, hfar hkeys, zero_add]
        unfold Entry.signed
        rw [hbuy, hdest]
        exact Numeric.fix_nonneg hamount
      · refine .apart ⟨?_, ?_, rfl, by simp⟩
        · simp only [List.mem_cons, List.not_mem_nil, or_false, not_or]
          exact ⟨Ne.symm hk, Ne.symm hk'⟩
        · intro stmt hstmt
          simp only [List.mem_cons, List.not_mem_nil, or_false] at hstmt
          rcases hstmt with rfl | rfl | rfl | rfl | rfl
          · exact hk
          · exact hk
          · exact hk'
          · exact hk
          · exact hk'

theorem opens_bulk {accepted : List (BulkTrade × Bool)} {trades : List BulkTrade}
    (haccepted : accepted = acceptedTrades js plan trades (s.store.load p))
    (hcovers : s.store.CoversStored N p accepted)
    (hc : c = { todo := accepted.flatMap (insertTrade N p)
                recalcs := (accepted.map fun a => (a.1.entry N p).key).dedup
                loaded := some s.store.balance }) :
    c.WellFormed N ∧ Progress N k s i c := by
  have hentries : c.entries = accepted.map fun a => a.1.entry N p := by
    subst hc
    exact entries_insertTrade
  subst hc
  refine ⟨⟨?_, fun h => absurd rfl h, List.nodup_dedup _⟩, ?_⟩
  · rw [hentries]
    intro e he
    obtain ⟨a, -, rfl⟩ := List.mem_map.mp he
    exact onGrid_entry
  · by_cases hk : k ∈ accepted.map fun a => (a.1.entry N p).key
    · refine .queued ⟨List.mem_dedup.mpr hk, fun _ => rfl, .inl rfl, ?_⟩
      obtain ⟨a, ha, rfl⟩ := List.mem_map.mp hk
      have hcover : 0 ≤ s.store.balance (p, a.1.token.id) +
          net (p, a.1.token.id) (accepted.map fun a => a.1.entry N p) := hcovers a ha
      cases hheld : s.store.holding (p, a.1.token.id) with
      | some h =>
          have hsome : (s.store.holding (a.1.entry N p).key).isSome := by
            show (s.store.holding (p, a.1.token.id)).isSome
            rw [hheld]
            rfl
          refine .loaded s.store.balance hsome rfl ?_
          rw [hentries]
          exact hcover
      | none =>
          have hzero : s.store.balance (p, a.1.token.id) = 0 := by
            unfold Store.balance
            rw [hheld]
            rfl
          rw [hzero, zero_add] at hcover
          have hloaded : (s.store.load p).heldTokens a.1.token.id = false := by
            show (s.store.holding (p, a.1.token.id)).isSome = false
            rw [hheld]
            rfl
          subst haccepted
          obtain ⟨a', ha', hcreates, hid⟩ := creates_of_accepted hloaded ha rfl
          rw [← hentries] at hcover
          refine .creating rfl (.inl (List.mem_flatMap.mpr ⟨a', ha', ?_⟩)) hcover
          have hkey : (a'.1.entry N p).key = (a.1.entry N p).key := by
            show (p, a'.1.token.id) = (p, a.1.token.id)
            rw [hid]
          unfold insertTrade
          simp only [hcreates, if_true, hkey]
          exact List.mem_cons_self
    · refine .apart ⟨fun h => hk (List.mem_dedup.mp h), ?_, rfl, by simp⟩
      intro stmt hstmt heq
      obtain ⟨a, ha, hmem⟩ := List.mem_flatMap.mp hstmt
      exact hk (List.mem_map.mpr ⟨a, ha, (key_insertTrade hmem).symm.trans heq⟩)

/-- An accepted row moves the running balance by its signed amount and keeps it covered. -/
theorem applyRunning_running {trade : BulkTrade} {b b' : Batch} {createAsset : Bool}
    (hzero : ∀ tokenId, b.heldTokens tokenId = false → b.runningBalance tokenId = 0)
    (hrow : applyRunning js plan trade.token trade.direction trade.amountCell trade.amount b =
      .ok (b', createAsset)) :
    (∀ tokenId, b'.heldTokens tokenId = false → b'.runningBalance tokenId = 0) ∧
      b'.runningBalance = Function.update b.runningBalance trade.token.id
        (b.runningBalance trade.token.id + trade.direction.signed trade.amount) ∧
      (0 ≤ b.runningBalance trade.token.id →
        0 ≤ b.runningBalance trade.token.id + trade.direction.signed trade.amount) := by
  have hpos : 0 ≤ trade.amount.val := trade.amount.property.1.le
  have hkept : ∀ {held : ℕ → Bool} {balance : ℚ}, held trade.token.id = true →
      (∀ tokenId, tokenId ≠ trade.token.id → held tokenId = b.heldTokens tokenId) →
      ∀ tokenId, held tokenId = false →
        Function.update b.runningBalance trade.token.id balance tokenId = 0 := by
    intro held balance hself hothers tokenId hnot
    have hne : tokenId ≠ trade.token.id := by
      rintro rfl
      rw [hself] at hnot
      cases hnot
    rw [Function.update_of_ne hne]
    exact hzero tokenId (hothers tokenId hne ▸ hnot)
  unfold applyRunning at hrow
  cases hdirection : trade.direction with
  | buy =>
      simp only [hdirection] at hrow
      split at hrow
      · next hheld =>
          cases hrow
          exact ⟨hkept hheld fun _ _ => rfl, rfl, fun h => add_nonneg h hpos⟩
      · next hheld =>
          split at hrow
          · cases hrow
          · cases hrow
            have hempty := hzero trade.token.id (by simpa using hheld)
            refine ⟨hkept (Function.update_self ..) fun _ hne => Function.update_of_ne hne ..,
              ?_, fun h => add_nonneg h hpos⟩
            rw [hempty]
            rfl
  | sell =>
      simp only [hdirection] at hrow
      split at hrow
      · cases hrow
      · next hheld =>
          split at hrow
          · cases hrow
          · next hcover =>
              cases hrow
              have hself : b.heldTokens trade.token.id = true := by simpa using hheld
              refine ⟨hkept hself fun _ _ => rfl, ?_, fun _ => ?_⟩
              · show Function.update b.runningBalance trade.token.id _ = _
                rw [sub_eq_add_neg]
                rfl
              · show 0 ≤ b.runningBalance trade.token.id + -trade.amount.val
                linarith
  | transfer => exact absurd hdirection trade.moves

/-- Amounts that a column holds exactly never lose the cover to rounding. -/
theorem coversStored_of_onGrid {trades : List BulkTrade}
    (hgrid : ∀ trade ∈ trades, N.OnGrid trade.amount)
    (hpos : ∀ tokenId, 0 ≤ store.balance (p, tokenId)) :
    store.CoversStored N p (acceptedTrades js plan trades (store.load p)) := by
  have hrun : ∀ b : Batch,
      (∀ tokenId, b.heldTokens tokenId = false → b.runningBalance tokenId = 0) →
      ∀ tokenId, 0 ≤ b.runningBalance tokenId →
        0 ≤ b.runningBalance tokenId + net (p, tokenId)
          ((acceptedTrades js plan trades b).map fun a => a.1.entry N p) := by
    -- the running balance pays for the rows that are left
    induction trades with
    | nil =>
        intro b _ tokenId h
        rw [acceptedTrades, List.map_nil, net_nil, add_zero]
        exact h
    | cons trade trades ih =>
        intro b hzero tokenId h
        have hrest := ih fun trade' h' => hgrid trade' (List.mem_cons_of_mem _ h')
        rw [acceptedTrades]
        cases hrow : applyRunning js plan trade.token trade.direction trade.amountCell
            trade.amount b with
        | error e => exact hrest b hzero tokenId h
        | ok r =>
            obtain ⟨b', createAsset⟩ := r
            obtain ⟨hzero', hrunning, hcover⟩ := applyRunning_running hzero hrow
            have hsplit : b'.runningBalance tokenId =
                b.runningBalance tokenId + net (p, tokenId) [trade.entry N p] := by
              rw [hrunning]
              by_cases hid : tokenId = trade.token.id
              · subst hid
                have hexact : N.fix trade.amount = trade.amount.val :=
                  hgrid trade List.mem_cons_self
                rw [Function.update_self, show (p, trade.token.id) = (trade.entry N p).key
                  from rfl, net_singleton]
                show _ = _ + trade.direction.signed (N.fix trade.amount)
                rw [hexact]
              · have hfar : net (p, tokenId) [trade.entry N p] = 0 := by
                  apply net_eq_zero
                  intro e he heq
                  rw [List.mem_singleton.mp he] at heq
                  exact hid (congrArg Prod.snd heq).symm
                rw [Function.update_of_ne hid, hfar, add_zero]
            have hpos' : 0 ≤ b'.runningBalance tokenId := by
              rw [hrunning]
              by_cases hid : tokenId = trade.token.id
              · subst hid
                rw [Function.update_self]
                exact hcover h
              · rw [Function.update_of_ne hid]
                exact h
            have hnext := hrest b' hzero' tokenId hpos'
            have hcons : ∀ es : List Entry, net (p, tokenId) (trade.entry N p :: es) =
                net (p, tokenId) [trade.entry N p] + net (p, tokenId) es :=
              fun es => @net_append _ [trade.entry N p] _
            rw [List.map_cons, hcons, ← add_assoc, ← hsplit]
            exact hnext
  intro a _
  refine hrun (store.load p) (fun tokenId hnot => ?_) a.1.token.id (hpos _)
  have hnone : store.holding (p, tokenId) = none := by
    simpa [Store.load] using hnot
  show store.balance (p, tokenId) = 0
  unfold Store.balance
  rw [hnone]
  rfl

end Begin

/-! ## Interleavings -/

/-- The conditions of the next statement of a session. -/
def Session.Safe (s : State) (i : ℕ) (c : Session) : Prop :=
  (∀ stmt ∈ c.todo.head?, stmt.Safe s i c) ∧
    (c.todo = [] → ∀ key ∈ c.recalcs.head?, c.Fresh s key)

/-- What keeps a step from overselling: the rounding of an import does not, and the next
statement of a session meets its conditions. -/
def SafeStep (N : Numeric) (s : State) : SessionEvent → Prop
  | .begin _ (.bulk portfolioId js plan _ trades) =>
      s.store.CoversStored N portfolioId
        (acceptedTrades js plan trades (s.store.load portfolioId))
  | .exec i => ∀ c ∈ s.sessions i, c.Safe s i
  | _ => True

theorem PostRequest.opens {request : PostRequest} (hopen : request.session N s.store = some c)
    (hsafe : SafeStep N s (.begin i request)) : c.WellFormed N ∧ Progress N k s i c := by
  cases request with
  | create portfolioId plan token table direction amount =>
      simp only [PostRequest.session] at hopen
      split at hopen
      · next hheld =>
          split at hopen
          · next hsell =>
              exact @opens_sell _ _ _ _ _ ⟨(portfolioId, token.id), direction, table,
                N.fix amount⟩ _ hsell rfl (Option.some.inj hopen).symm
          · next hsell =>
              refine @opens_single _ _ _ _ _ ⟨(portfolioId, token.id), direction, table,
                N.fix amount⟩ _ (N.onGrid_fix _) ?_ (.inl ⟨rfl, hheld⟩) (Option.some.inj hopen).symm
              unfold Entry.signed
              cases direction with
              | buy => exact Numeric.fix_nonneg amount.property.1.le
              | sell => exact absurd rfl hsell
              | transfer => exact le_refl 0
      · split at hopen
        · next hbuy =>
            refine @opens_single _ _ _ _ _ ⟨(portfolioId, token.id), direction, table,
              N.fix amount⟩ _ (N.onGrid_fix _) ?_ (.inr rfl) (Option.some.inj hopen).symm
            unfold Entry.signed
            rw [hbuy.1]
            exact Numeric.fix_nonneg amount.property.1.le
        · cases hopen
  | createNft =>
      cases hopen
      exact ⟨⟨by simp [Session.entries], fun h => absurd rfl h, List.nodup_nil⟩,
        .apart ⟨by simp, by simp, rfl, by simp⟩⟩
  | transfer sourceId destId tokenId amount =>
      simp only [PostRequest.session] at hopen
      split at hopen
      · cases hopen
      · next hne =>
          exact @opens_transfer _ _ _ _ _ ⟨(sourceId, tokenId), .sell, .native, N.fix amount⟩
              ⟨(destId, tokenId), .buy, .native, N.fix amount⟩ _
              (fun heq => hne (congrArg Prod.fst heq)) rfl rfl rfl rfl amount.property.1.le
              (Option.some.inj hopen).symm
  | bulk portfolioId js plan mode trades =>
      simp only [PostRequest.session] at hopen
      split at hopen
      · cases hopen
      · exact opens_bulk rfl hsafe (Option.some.inj hopen).symm

/-- The holding is settled and not oversold, and every open session keeps it so. -/
structure Inv (N : Numeric) (k : ℕ × ℕ) (s : State) : Prop where
  settled : s.store.Settled k N
  nonneg : ∀ h, s.store.holding k = some h → 0 ≤ h.balance
  sessions : ∀ i c, s.sessions i = some c → c.WellFormed N ∧ Progress N k s i c

namespace Inv

theorem of_local (h : Inv N k s) (hlocal : State.Local i s s')
    (hown : ∀ c', s'.sessions i = some c' → c'.WellFormed N ∧ Progress N k s' i c') :
    Inv N k s' where
  settled := hlocal.store ▸ h.settled
  nonneg := hlocal.store ▸ h.nonneg
  sessions j c' hc' := by
    by_cases hj : j = i
    · subst hj
      exact hown c' hc'
    · rw [hlocal.sessions j hj] at hc'
      obtain ⟨hwf, hprogress⟩ := h.sessions j c' hc'
      exact ⟨hwf, (hlocal.undisturbed hj).progress hprogress⟩

theorem begin {request : PostRequest} (h : Inv N k s)
    (hopen : request.session N s.store = some c)
    (hsafe : SafeStep N s (.begin i request)) : Inv N k (s.put i c) := by
  refine h.of_local .put fun c' hc' => ?_
  cases hc'.symm.trans State.sessions_put_self
  have hsafe' : SafeStep N (s.put i c) (.begin i request) := by
    cases request <;> exact hsafe
  exact PostRequest.opens hopen hsafe'

theorem exec (h : Inv N k s) (hc : s.sessions i = some c) (hstep : s.next i N c = some s')
    (hsafe : SafeStep N s (.exec i)) : Inv N k s' := by
  obtain ⟨hwf, hprogress⟩ := h.sessions i c hc
  refine h.of_local (.next hstep) fun c' hc' => ?_
  obtain ⟨hstmt, hfresh⟩ := hsafe c hc
  unfold State.next at hstep
  split at hstep
  · next stmt rest htodo =>
      have hexec := State.Executed.of_exec hstep
      rw [hc'] at hexec
      have hsafe' : stmt.Safe s i c := hstmt stmt (by rw [htodo]; rfl)
      exact ⟨hexec.wellFormed htodo hwf, hexec.progress htodo hwf h.settled hsafe' hprogress⟩
  · next key rest htodo hrecalcs =>
      obtain ⟨c'', hc'', hrecalc⟩ := State.Recalculated.of_recalc hstep
      cases hc'.symm.trans hc''
      have hfresh' : c.Fresh s key := hfresh htodo key (by rw [hrecalcs]; rfl)
      exact ⟨hrecalc.wellFormed hrecalcs htodo hwf,
        hrecalc.progress hrecalcs htodo hwf h.settled h.nonneg hfresh' hprogress⟩
  · cases hstep

theorem close (h : Inv N k s) : Inv N k (s.close i) := by
  refine h.of_local .close fun c' hc' => ?_
  cases hc'.symm.trans State.sessions_close_self

/-- A session that commits has recalculated the holding, or never touched it. -/
theorem commit (h : Inv N k s) (hc : s.sessions i = some c) (hrecalcs : c.recalcs = []) : Inv N k
    { s.close i with store := s.merge c } := by
  obtain ⟨hwf, hprogress⟩ := h.sessions i c hc
  have hnil : k ∉ c.recalcs := by
    rw [hrecalcs]
    exact List.not_mem_nil
  have hothers : ∀ j, j ≠ i → (s.close i).sessions j = s.sessions j :=
    (State.Local.close (s := s) (i := i)).sessions
  have hlocks : ∀ j, j ≠ i → s.locks k = some j → (s.close i).locks k = some j :=
    fun j hj => (State.Local.close (s := s) (i := i)).locks j hj k
  have hnobody : ∀ c', (s.close i).sessions i ≠ some c' := by
    intro c' hc'
    cases hc'.symm.trans State.sessions_close_self
  cases hprogress with
  | apart ha =>
      have hrow : s.row c k = s.store.holding k := row_eq_of_own ha.own
      have hmoved : ∀ table, moved table k (s.store.entries ++ c.inserted) =
          moved table k s.store.entries := by
        intro table
        rw [moved_append, moved_eq_zero ha.inserted, add_zero]
      have hqty : (s.merge c).qty k = s.store.qty k := by
        unfold Store.qty Store.opening net
        rw [show (s.merge c).holding k = s.store.holding k from hrow,
          show (s.merge c).entries = s.store.entries ++ c.inserted from rfl, hmoved, hmoved]
      refine ⟨⟨hqty ▸ h.settled.grid, fun row hheld => ?_⟩, fun row hheld => ?_, ?_⟩
      · rw [hqty]
        exact h.settled.balance row (hrow ▸ hheld)
      · exact h.nonneg row (hrow ▸ hheld)
      · intro j c' hc'
        by_cases hj : j = i
        · exact absurd hc' (hj ▸ hnobody c')
        · obtain ⟨hwf', hprogress'⟩ := h.sessions j c' ((hothers j hj) ▸ hc')
          refine ⟨hwf', Undisturbed.progress (s := s) ⟨?_, hlocks j hj, ?_, ?_⟩ hprogress'⟩
          · intro hheld
            show (s.row c k).isSome
            rw [hrow]
            exact hheld
          · exact fun _ => hrow
          · exact fun _ => hmoved
  | queued hq => exact absurd hq.mem hnil
  | reading hr =>
      have hhead := hr.head
      rw [hrecalcs] at hhead
      cases hhead
  | done hd =>
      obtain ⟨row, hown, hopening, hbalance, hpos⟩ := hd.row
      have hrow : s.row c k = some row := by
        unfold State.row
        rw [hown]
        rfl
      have hqty : (s.merge c).qty k = row.balance := by
        rw [hbalance]
        unfold Store.qty
        rw [@Store.opening_of_holding (s.merge c) _ _ hrow, hopening]
        show s.store.opening k + net k (s.store.entries ++ c.inserted) = _
        rw [net_append]
        ring
      have hgrid : N.OnGrid row.balance := by
        rw [hbalance]
        exact h.settled.grid.add (onGrid_net fun e he => hwf.grid e (List.mem_append_left _ he))
      refine ⟨⟨?_, fun row' hheld => ?_⟩, fun row' hheld => ?_, ?_⟩
      · rw [hqty]
        exact hgrid
      · cases hheld.symm.trans hrow
        rw [hqty]
        exact hgrid.symm
      · cases hheld.symm.trans hrow
        exact hpos
      · intro j c' hc'
        by_cases hj : j = i
        · exact absurd hc' (hj ▸ hnobody c')
        · obtain ⟨hwf', hprogress'⟩ := h.sessions j c' ((hothers j hj) ▸ hc')
          have hfree : s.locks k ≠ some j := by
            rw [hd.locked]
            exact fun heq => hj (Option.some.inj heq).symm
          refine ⟨hwf', Undisturbed.progress (s := s) ⟨?_, hlocks j hj, ?_, ?_⟩ hprogress'⟩
          · intro _
            show (s.row c k).isSome
            rw [hrow]
            rfl
          · exact fun hlocked => absurd hlocked hfree
          · exact fun hlocked => absurd hlocked hfree

theorem step {e : SessionEvent} (h : Inv N k s) (hstep : Interleaves N s e s')
    (hsafe : SafeStep N s e) : Inv N k s' := by
  unfold Interleaves at hstep
  cases e with
  | begin i request =>
      rw [State.step] at hstep
      split at hstep
      · cases hstep
      · obtain ⟨c, hopen, rfl⟩ := Option.map_eq_some_iff.mp hstep
        exact h.begin hopen hsafe
  | exec i =>
      rw [State.step] at hstep
      split at hstep
      · next hc => exact h.exec hc hstep hsafe
      · cases hstep
  | commit i =>
      rw [State.step] at hstep
      split at hstep
      · next hc =>
          split at hstep
          · next hend =>
              cases hstep
              exact h.commit hc hend.2
          · cases hstep
      · cases hstep
  | abort i =>
      rw [State.step] at hstep
      split at hstep
      · cases hstep
        exact h.close
      · cases hstep

end Inv

/-- No stored balance of the portfolio is negative. -/
def Store.NonNegative (st : Store) (p : ℕ) : Prop :=
  ∀ tokenId h, st.holding (p, tokenId) = some h → 0 ≤ h.balance

/-- Concurrent posts never oversell a portfolio: from non-negative balances, every
interleaving of steps that are safe leaves the balances non-negative. -/
theorem no_oversell_of_safeSteps {N : Numeric} {p : ℕ} {store : Store}
    {events : List SessionEvent} {s : State}
    (hsettled : ∀ tokenId, store.Settled (p, tokenId) N) (hnonneg : store.NonNegative p)
    (hrun : Run (Guarded (Interleaves N) (SafeStep N)) (State.idle store) events s) :
    s.store.NonNegative p := by
  intro tokenId
  have hinv : Inv N (p, tokenId) (State.idle store) :=
    ⟨hsettled tokenId, hnonneg tokenId, fun _ _ hc => by cases hc⟩
  exact (hrun.invariant (fun _ _ _ h hstep => h.step hstep.1 hstep.2) hinv).nonneg

section Checks

variable {stmt : Stmt} {key : ℕ × ℕ} {e : SessionEvent}

instance : Decidable (stmt.Safe s i c) :=
  match stmt with
  | .lock _ => inferInstanceAs (Decidable True)
  | .check key amount =>
      inferInstanceAs (Decidable (∀ h ∈ s.row c key, amount ≤ h.balance → s.locks key = some i))
  | .ensureAsset _ => inferInstanceAs (Decidable True)
  | .createAsset key => inferInstanceAs (Decidable (0 ≤ net key s.store.entries))
  | .insert _ => inferInstanceAs (Decidable True)

instance : Decidable (c.Fresh s key) :=
  inferInstanceAs (Decidable (c.stage = .lock → ∀ balance ∈ c.loaded, net key c.inserted < 0 →
    balance key ≤ s.store.balance key))

instance : Decidable (c.Safe s i) :=
  inferInstanceAs (Decidable ((∀ stmt ∈ c.todo.head?, stmt.Safe s i c) ∧
    (c.todo = [] → ∀ key ∈ c.recalcs.head?, c.Fresh s key)))

instance {accepted : List (BulkTrade × Bool)} {st : Store} {p : ℕ} :
    Decidable (st.CoversStored N p accepted) :=
  inferInstanceAs (Decidable (∀ a ∈ accepted, 0 ≤ st.balance (a.1.entry N p).key +
    net (a.1.entry N p).key (accepted.map fun a => a.1.entry N p)))

instance : Decidable (SafeStep N s e) :=
  match e with
  | .begin _ (.bulk portfolioId js plan _ trades) =>
      inferInstanceAs (Decidable (s.store.CoversStored N portfolioId
        (acceptedTrades js plan trades (s.store.load portfolioId))))
  | .begin _ (.create ..) => inferInstanceAs (Decidable True)
  | .begin _ .createNft => inferInstanceAs (Decidable True)
  | .begin _ (.transfer ..) => inferInstanceAs (Decidable True)
  | .exec i => inferInstanceAs (Decidable (∀ c ∈ s.sessions i, c.Safe s i))
  | .commit _ => inferInstanceAs (Decidable True)
  | .abort _ => inferInstanceAs (Decidable True)

end Checks

/-! ### Two sessions on one coin -/

def soldToken : Token where
  id := 0
  symbol := "ETH"
  rank := some 2
  currentPrice := 100

def oneCoin : Store where
  holding key := if key = (1, 0) then some ⟨1, 1⟩ else none
  entries := []

/-- An import of one sale. -/
def importSale (amount : AmountStr) : PostRequest :=
  .bulk 1 ⟨id, id, fun _ => ""⟩ .free .allOrNothing
    [⟨soldToken, .sell, "", amount, by decide⟩]

def createOne (direction : Direction) (amount : AmountStr) : PostRequest :=
  .create 1 .free soldToken .native direction amount

def execs (i n : ℕ) : List SessionEvent := List.replicate n (.exec i)

theorem oneCoin_settled (tokenId : ℕ) :
    oneCoin.Settled (1, tokenId) (Numeric.decimal 12 8) := by
  have hqty : oneCoin.qty (1, tokenId) = if tokenId = 0 then 1 else 0 := by
    unfold Store.qty Store.opening oneCoin
    by_cases hzero : tokenId = 0
    · simp [hzero]
    · simp [hzero]
  have hone : (Numeric.decimal 12 8).OnGrid 1 := by
    show (Numeric.decimal 12 8).fix 1 = 1
    decide +kernel
  refine ⟨?_, fun h hheld => ?_⟩
  · rw [hqty]
    split
    · exact hone
    · exact Numeric.onGrid_zero _
  · rw [hqty]
    by_cases hzero : tokenId = 0
    · subst hzero
      cases hheld
      rw [if_pos rfl]
      exact hone.symm
    · simp [oneCoin, hzero] at hheld

theorem oneCoin_nonNegative : oneCoin.NonNegative 1 := by
  intro tokenId h hheld
  simp only [oneCoin] at hheld
  split at hheld
  · cases hheld
    exact zero_le_one
  · cases hheld

/-- An import sells the coin while a buy of another one commits; then a third session sells
that one. -/
def buyWhileImporting : List SessionEvent :=
  [.begin 0 (importSale ⟨1, amount_1⟩), .begin 1 (createOne .buy ⟨1, amount_1⟩)] ++
    execs 1 6 ++ [.commit 1] ++ execs 0 6 ++ [.commit 0, .begin 2
        (createOne .sell ⟨1, amount_1⟩)] ++
    execs 2 8 ++ [.commit 2]

theorem no_oversell_buyWhileImporting :
    ∃ s, Run (Guarded (Interleaves (Numeric.decimal 12 8)) (SafeStep (Numeric.decimal 12 8)))
      (State.idle oneCoin) buyWhileImporting s ∧ s.store.NonNegative 1 := by
  have hrun : (buyWhileImporting.foldlM
      (fun s e => if SafeStep (Numeric.decimal 12 8) s e then s.step (Numeric.decimal 12 8) e
        else none) (State.idle oneCoin)).isSome := by
    decide +kernel
  obtain ⟨s, hs⟩ := Option.isSome_iff_exists.mp hrun
  exact ⟨s, run_of_foldlM hs,
    no_oversell_of_safeSteps oneCoin_settled oneCoin_nonNegative (run_of_foldlM hs)⟩

/-- Both read the one coin; the sale commits before the import inserts. -/
def sellWhileImporting : List SessionEvent :=
  [.begin 0 (importSale ⟨1, amount_1⟩), .begin 1 (createOne .sell ⟨1, amount_1⟩)] ++
    execs 1 8 ++ [.commit 1] ++ execs 0 6 ++ [.commit 0]

theorem sellWhileImporting_oversells :
    (∀ tokenId, oneCoin.Settled (1, tokenId) (Numeric.decimal 12 8)) ∧
      oneCoin.NonNegative 1 ∧
      ∃ s, Run (Interleaves (Numeric.decimal 12 8)) (State.idle oneCoin) sellWhileImporting s ∧
        ¬ s.store.NonNegative 1 := by
  refine ⟨oneCoin_settled, oneCoin_nonNegative, ?_⟩
  have hrun : (sellWhileImporting.foldlM
      (fun s e => if True then s.step (Numeric.decimal 12 8) e else none)
      (State.idle oneCoin)).any
        (fun s => (s.store.holding (1, 0)).any fun h => h.balance < 0) = true := by
    decide +kernel
  obtain ⟨s, hs, hnegative⟩ := (Option.any_eq_true _ _).mp hrun
  obtain ⟨h, hheld, hlt⟩ := (Option.any_eq_true _ _).mp hnegative
  refine ⟨s, (@run_of_foldlM _ _ _ (fun _ _ => True) _ _ _ _ hs).mono fun _ _ _ hstep => hstep.1,
      ?_⟩
  intro hnonneg
  have hge := hnonneg 0 h hheld
  have hlt' : h.balance < 0 := by simpa using hlt
  linarith

end Neonfi.Ledger
