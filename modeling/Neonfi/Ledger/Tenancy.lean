import Neonfi.Ledger.Lifecycle

/-!
# Transfers stay whole and users stay apart

Over any run of commands, every reference leads somewhere, the legs of a transfer are the two
rows it wrote for as long as their portfolios exist, and nobody but its owner changes a
portfolio.  The last rests on the one before it: deleting a transfer deletes rows by its id,
wherever they are.
-/

namespace Neonfi.Ledger

open Lib

variable {N : Numeric} {js : Js} {userId : ℕ} {uuid? : Option String} {db db' : Db}

/-! ## Portfolios come and go -/

theorem findPortfolioById_createPortfolio {mk : ℕ → Portfolio} {hmk : ∀ n, (mk n).id = n} {p q : ℕ}
    (h : db.createPortfolio mk hmk = .ok (p, db')) (hne : q ≠ p) :
    db'.findPortfolioById q = db.findPortfolioById q := by
  obtain ⟨rfl, portfolios, rfl, hrows⟩ := createPortfolio_ok h
  show portfolios.rows.find? _ = db.portfolios.rows.find? _
  rw [hrows, List.find?_append, List.find?_singleton, if_neg, Option.or_none]
  rw [hmk]
  simpa using hne.symm

theorem next_createPortfolio {mk : ℕ → Portfolio} {hmk : ∀ n, (mk n).id = n} {p : ℕ}
    (h : db.createPortfolio mk hmk = .ok (p, db')) :
    p = db.portfolios.next ∧ db'.portfolios.next = p + 1 ∧
      db'.findPortfolioById p = some (mk p) := by
  unfold Db.createPortfolio at h
  split at h
  · next portfolios hinsert =>
      cases h
      obtain ⟨hrows, hnext⟩ := SerialTable.of_insert? hinsert
      refine ⟨rfl, hnext, SerialTable.find?_eq_some_iff.mpr ⟨?_, hmk _⟩⟩
      show _ ∈ portfolios.rows
      rw [hrows]
      exact List.mem_append_right _ List.mem_cons_self
  · cases h

theorem findPortfolioById_deletePortfolio_of_ne {id q : ℕ} (hne : q ≠ id) :
    (db.deletePortfolio id).findPortfolioById q = db.findPortfolioById q := by
  show (db.portfolios.rows.filter _).find? _ = db.portfolios.rows.find? _
  rw [List.find?_filter]
  congr 1
  funext r
  by_cases hr : r.id = q
  · simp [hr, hne]
  · simp [hr]

theorem findPortfolioById_deletePortfolio_self (id : ℕ) :
    (db.deletePortfolio id).findPortfolioById id = none := by
  apply List.find?_eq_none.mpr
  intro r hr
  simpa using (List.mem_filter.mp hr).2

theorem owner_deletePortfolio (id q : ℕ) :
    (db.deletePortfolio id).owner? q = if q = id then none else db.owner? q := by
  unfold Db.owner?
  split
  · next heq =>
      rw [heq, findPortfolioById_deletePortfolio_self]
      rfl
  · next hne => rw [findPortfolioById_deletePortfolio_of_ne hne]

/-! ## References -/

namespace References

theorem insertRow {data : TransactionData} (h : References db)
    (hp : (db.owner? data.portfolioId).isSome) (hrow : db.createTransactionRow data = .ok db') :
    References db' := by
  obtain ⟨transactions, rfl, hrows⟩ := createTransactionRow_ok hrow
  refine ⟨⟨h.assets, fun t ht => ?_⟩, h.tokens⟩
  change t ∈ transactions.rows at ht
  rw [hrows] at ht
  rcases List.mem_append.mp ht with ht | ht
  · exact h.transactions t ht
  · rw [List.mem_singleton.mp ht]
    exact (isSome_owner ▸ hp : (db.findPortfolioById data.portfolioId).isSome)

theorem dropLegs (h : References db) (groupId : String) : References (db.dropLegs groupId) :=
  ⟨⟨h.assets, fun t ht => h.transactions t (List.mem_of_mem_filter ht)⟩, h.tokens⟩

theorem createPortfolio {mk : ℕ → Portfolio} {hmk : ∀ n, (mk n).id = n} {p : ℕ}
    (h : References db) (hcreate : db.createPortfolio mk hmk = .ok (p, db')) :
    References db' := by
  have hkept : ∀ q, (db.findPortfolioById q).isSome → (db'.findPortfolioById q).isSome := by
    intro q hq
    have hlt := lt_next_of_isSome hq
    rw [← (next_createPortfolio hcreate).1] at hlt
    rw [findPortfolioById_createPortfolio hcreate hlt.ne]
    exact hq
  obtain ⟨-, portfolios, rfl, -⟩ := createPortfolio_ok hcreate
  exact ⟨⟨fun a ha => hkept _ (h.assets a ha), fun t ht => hkept _ (h.transactions t ht)⟩,
    h.tokens⟩

theorem deletePortfolio (h : References db) (id : ℕ) : References (db.deletePortfolio id) := by
  refine ⟨⟨fun a ha => ?_, fun t ht => ?_⟩, fun a ha => h.tokens a (List.mem_of_mem_filter ha)⟩
  · obtain ⟨ha, hne⟩ := List.mem_filter.mp ha
    rw [findPortfolioById_deletePortfolio_of_ne (of_decide_eq_true hne)]
    exact h.assets a ha
  · obtain ⟨ht, hne⟩ := List.mem_filter.mp ht
    rw [findPortfolioById_deletePortfolio_of_ne (of_decide_eq_true hne)]
    exact h.transactions t ht

theorem deletePortfolios (h : References db) (ids : List ℕ) :
    References (ids.foldl (fun db id => db.deletePortfolio id) db) := by
  induction ids generalizing db with
  | nil => exact h
  | cons id ids ih => exact ih (h.deletePortfolio id)

theorem change (h : References db) (hchange : Change N userId uuid? db db') : References db' := by
  have hexist : ∀ {db : Db} {p : ℕ}, db.owner? p = some userId → (db.owner? p).isSome := by
    intro db p hp
    rw [hp]
    rfl
  cases hchange with
  | quiet howned hquiet => exact hquiet.references (fun p hp => hexist (howned p hp)) h
  | @transfer env body source dest usdValue db db₁ db₂ db₃ db' hsource hdest hne hopen hsell hbuy
      hsettle =>
      have hpair : ∀ p ∈ ({source, dest} : Set ℕ), (db.owner? p).isSome := by
        rintro p (rfl | rfl)
        · exact hexist hsource
        · exact hexist hdest
      have hsold : ∀ p, db₂.owner? p = db.owner? p := by
        intro p
        rw [← hopen.owners p]
        obtain ⟨_, rfl, -⟩ := createTransactionRow_ok hsell
        rfl
      have hbought : ∀ p, db₃.owner? p = db.owner? p := by
        intro p
        rw [← hsold p]
        obtain ⟨_, rfl, -⟩ := createTransactionRow_ok hbuy
        rfl
      have hopened := hopen.references hpair h
      have hfirst := hopened.insertRow (hexist ((hopen.owners source).trans hsource)) hsell
      have hboth := hfirst.insertRow (hexist ((hsold dest).trans hdest)) hbuy
      exact hsettle.references (fun p hp => by rw [hbought p]; exact hpair p hp) hboth
  | @dropTransfer t groupId db db' ht hgroup howner hsettle =>
      refine hsettle.references (fun p hp => ?_) (h.dropLegs groupId)
      obtain ⟨leg, hleg, rfl⟩ := hp
      show (db.owner? leg.portfolioId).isSome
      rw [isSome_owner]
      exact h.transactions leg (List.mem_of_mem_filter hleg)
  | createPortfolio hmk hcreate hseed =>
      refine hseed.references (fun q hq => ?_) (h.createPortfolio hcreate)
      rw [Set.mem_singleton_iff.mp hq, isSome_owner, (next_createPortfolio hcreate).2.2]
      rfl
  | dropPortfolios => exact h.deletePortfolios _

end References

/-! ## The rows of a transfer -/

theorem legs_createTransactionRow {data : TransactionData} (groupId : String)
    (hrow : db.createTransactionRow data = .ok db') :
    db'.legs groupId = db.legs groupId ++
      if data.transferGroupId = some groupId then [⟨data, db.transactions.next⟩] else [] := by
  obtain ⟨transactions, rfl, hrows⟩ := createTransactionRow_ok hrow
  unfold Db.legs
  rw [show ({ db with transactions } : Db).transactions.rows = transactions.rows from rfl, hrows,
    List.filter_append]
  congr 1
  split
  · next hgroup =>
      refine List.filter_eq_self.mpr fun t ht => ?_
      rw [List.mem_singleton.mp ht]
      exact decide_eq_true hgroup
  · next hgroup => rw [List.filter_cons_of_neg (by simpa using hgroup), List.filter_nil]

theorem legs_dropLegs (groupId other : String) :
    (db.dropLegs groupId).legs other = if other = groupId then [] else db.legs other := by
  show (db.transactions.rows.filter _).filter _ = _
  split
  · next heq =>
      rw [List.filter_filter, List.filter_eq_nil_iff]
      intro t _
      simp [heq]
  · next hne =>
      apply filter_filter_of_kept
      intro t _ ht
      have ht : t.transferGroupId = some other := of_decide_eq_true ht
      simp [ht, hne]

theorem legs_deletePortfolio (groupId : String) (id : ℕ) :
    (db.deletePortfolio id).legs groupId =
      (db.legs groupId).filter fun t => t.portfolioId ≠ id := by
  show (db.transactions.rows.filter _).filter _ = (db.transactions.rows.filter _).filter _
  rw [List.filter_filter, List.filter_filter]
  simp only [Bool.and_comm]

/-- The two rows that a transfer wrote, with the portfolios they were written in. -/
structure LegsOf (N : Numeric) (groupId : String) (db : Db) (sell buy : Transaction) : Prop where
  rows : ∃ (env : Env) (body : TransferBody) (source dest : ℕ) (usdValue : ℚ),
    env.uuid = groupId ∧ source ≠ dest ∧
      sell.toTransactionData = transferLeg N env body source .sell usdValue ∧
      buy.toTransactionData = transferLeg N env body dest .buy usdValue
  order : sell.id < buy.id
  below : sell.portfolioId < db.portfolios.next ∧ buy.portfolioId < db.portfolios.next
  owner : ∀ u v, db.owner? sell.portfolioId = some u → db.owner? buy.portfolioId = some v → u = v

/-- The rows with this id are those of one transfer whose portfolio still exists. -/
def Pair (N : Numeric) (groupId : String) (db : Db) : Prop :=
  ∃ sell buy, LegsOf N groupId db sell buy ∧
    db.legs groupId = [sell, buy].filter fun t => (db.owner? t.portfolioId).isSome

def Paired (N : Numeric) (db : Db) : Prop :=
  ∀ groupId, db.legs groupId = [] ∨ Pair N groupId db

/-- Portfolios may have gone, each with its leg. -/
theorem Pair.kept {groupId : String} (h : Pair N groupId db)
    (hnext : db.portfolios.next ≤ db'.portfolios.next)
    (howner : ∀ p < db.portfolios.next, ∀ u, db'.owner? p = some u → db.owner? p = some u)
    (hlegs : db'.legs groupId =
      (db.legs groupId).filter fun t => (db'.owner? t.portfolioId).isSome) :
    Pair N groupId db' := by
  obtain ⟨sell, buy, ⟨hrows, horder, ⟨hsell, hbuy⟩, hsame⟩, hrest⟩ := h
  refine ⟨sell, buy, ⟨hrows, horder, ⟨hsell.trans_le hnext, hbuy.trans_le hnext⟩,
    fun u v hu hv => hsame u v (howner _ hsell u hu) (howner _ hbuy v hv)⟩, ?_⟩
  rw [hlegs, hrest]
  apply filter_filter_of_kept
  intro t ht hexists
  obtain ⟨u, hu⟩ := Option.isSome_iff_exists.mp hexists
  have hbelow : t.portfolioId < db.portfolios.next := by
    rcases List.mem_pair.mp ht with rfl | rfl
    · exact hsell
    · exact hbuy
  rw [howner _ hbelow u hu]
  rfl

theorem Pair.of_same {groupId : String} (h : Pair N groupId db)
    (hnext : db.portfolios.next ≤ db'.portfolios.next)
    (howner : ∀ p < db.portfolios.next, db'.owner? p = db.owner? p)
    (hlegs : db'.legs groupId = db.legs groupId) : Pair N groupId db' := by
  refine h.kept hnext (fun p hp u hu => (howner p hp).symm.trans hu) ?_
  obtain ⟨sell, buy, ⟨-, -, ⟨hsell, hbuy⟩, -⟩, hrest⟩ := h
  rw [hlegs, eq_comm, List.filter_eq_self, hrest]
  intro t ht
  obtain ⟨hmem, hexists⟩ := List.mem_filter.mp ht
  rcases List.mem_pair.mp hmem with rfl | rfl
  · rwa [howner _ hsell]
  · rwa [howner _ hbuy]

theorem Paired.of_same (h : Paired N db) (hnext : db.portfolios.next ≤ db'.portfolios.next)
    (howner : ∀ p < db.portfolios.next, db'.owner? p = db.owner? p)
    (hlegs : ∀ groupId, db'.legs groupId = db.legs groupId) : Paired N db' := by
  intro groupId
  rw [hlegs]
  exact (h groupId).imp_right fun hpair => hpair.of_same hnext howner (hlegs groupId)

theorem Paired.quiet {S : Set ℕ} (h : Paired N db) (hquiet : Quiet S db db') : Paired N db' :=
  h.of_same hquiet.next.ge (fun p _ => hquiet.owners p) hquiet.legs

theorem Paired.deletePortfolio (h : Paired N db) (id : ℕ) : Paired N (db.deletePortfolio id) := by
  intro groupId
  rw [legs_deletePortfolio]
  rcases h groupId with hnil | hpair
  · left
    rw [hnil, List.filter_nil]
  · right
    refine hpair.kept le_rfl (fun p _ u hu => ?_) ?_
    · rw [owner_deletePortfolio] at hu
      split at hu
      · cases hu
      · exact hu
    · obtain ⟨sell, buy, -, hrest⟩ := hpair
      rw [legs_deletePortfolio]
      apply List.filter_congr
      intro t ht
      rw [hrest] at ht
      rw [owner_deletePortfolio]
      by_cases hid : t.portfolioId = id
      · simp [hid]
      · rw [if_neg hid, (List.mem_filter.mp ht).2]
        exact decide_eq_true hid

theorem Paired.deletePortfolios (h : Paired N db) (ids : List ℕ) :
    Paired N (ids.foldl (fun db id => db.deletePortfolio id) db) := by
  induction ids generalizing db with
  | nil => exact h
  | cons id ids ih => exact ih (h.deletePortfolio id)

theorem lt_next_of_owner {p u : ℕ} (h : db.owner? p = some u) : p < db.portfolios.next := by
  apply lt_next_of_isSome
  rw [← isSome_owner, h]
  rfl

theorem Paired.change (h : Paired N db) (hfresh : ∀ g, uuid? = some g → db.legs g = [])
    (hchange : Change N userId uuid? db db') : Paired N db' := by
  cases hchange with
  | quiet _ hquiet => exact h.quiet hquiet
  | @transfer env body source dest usdValue db db₁ db₂ db₃ db' hsource hdest hne hopen hsell hbuy
      hsettle =>
      refine Paired.quiet (fun groupId => ?_) hsettle
      have howners : ∀ p, db₃.owner? p = db₁.owner? p := by
        intro p
        obtain ⟨_, rfl, -⟩ := createTransactionRow_ok hsell
        obtain ⟨_, rfl, -⟩ := createTransactionRow_ok hbuy
        rfl
      have hnext : db₃.portfolios.next = db₁.portfolios.next := by
        obtain ⟨_, rfl, -⟩ := createTransactionRow_ok hsell
        obtain ⟨_, rfl, -⟩ := createTransactionRow_ok hbuy
        rfl
      have hlegs := legs_createTransactionRow groupId hbuy
      rw [legs_createTransactionRow groupId hsell] at hlegs
      by_cases hgroup : env.uuid = groupId
      · right
        have hleg : ∀ p dir, (transferLeg N env body p dir usdValue).transferGroupId =
            some groupId := fun p dir => congrArg some hgroup
        rw [if_pos (hleg _ _), if_pos (hleg _ _), hopen.legs, hfresh _ (congrArg some hgroup),
          List.nil_append, List.singleton_append] at hlegs
        have hsource₃ : db₃.owner? source = some userId := by
          rw [howners, hopen.owners, hsource]
        have hdest₃ : db₃.owner? dest = some userId := by
          rw [howners, hopen.owners, hdest]
        refine ⟨_, _, ⟨⟨env, body, source, dest, usdValue, hgroup, hne, rfl, rfl⟩, ?_,
          ⟨lt_next_of_owner hsource₃, lt_next_of_owner hdest₃⟩, fun u v hu hv => ?_⟩,
          hlegs.trans (List.filter_eq_self.mpr fun t ht => ?_).symm⟩
        · show db₁.transactions.next < db₂.transactions.next
          have hmem : (⟨transferLeg N env body source .sell usdValue, db₁.transactions.next⟩ :
              Transaction) ∈ db₂.transactions.rows := by
            obtain ⟨transactions, rfl, hrows⟩ := createTransactionRow_ok hsell
            show _ ∈ transactions.rows
            rw [hrows]
            exact List.mem_append_right _ List.mem_cons_self
          exact db₂.transactions.below _ hmem
        · exact Option.some.inj ((hu.symm.trans hsource₃).trans (hdest₃.symm.trans hv))
        · rcases List.mem_pair.mp ht with rfl | rfl
          · exact Option.isSome_iff_exists.mpr ⟨userId, hsource₃⟩
          · exact Option.isSome_iff_exists.mpr ⟨userId, hdest₃⟩
      · have hleg : ∀ p dir, ¬ (transferLeg N env body p dir usdValue).transferGroupId =
            some groupId := fun p dir heq => hgroup (Option.some.inj heq)
        rw [if_neg (hleg _ _), if_neg (hleg _ _), List.append_nil, List.append_nil] at hlegs
        rw [hlegs]
        exact (h.quiet hopen groupId).imp_right fun hpair =>
          hpair.of_same hnext.ge (fun p _ => howners p) hlegs
  | @dropTransfer t groupId db db' _ _ _ hsettle =>
      refine Paired.quiet (fun other => ?_) hsettle
      rw [legs_dropLegs]
      split
      · exact .inl rfl
      · next hne =>
          exact (h other).imp_right fun hpair =>
            hpair.of_same le_rfl (fun _ _ => rfl) (by rw [legs_dropLegs, if_neg hne])
  | createPortfolio _ hcreate hseed =>
      refine Paired.quiet (h.of_same ?_ (fun q hq => ?_) fun groupId => ?_) hseed
      · rw [(next_createPortfolio hcreate).2.1, (next_createPortfolio hcreate).1]
        exact Nat.le_succ _
      · unfold Db.owner?
        rw [findPortfolioById_createPortfolio hcreate]
        rw [(next_createPortfolio hcreate).1]
        exact hq.ne
      · obtain ⟨-, portfolios, rfl, -⟩ := createPortfolio_ok hcreate
        rfl
  | dropPortfolios => exact h.deletePortfolios _

/-! ## Fresh transfer ids -/

/-- No id of a transfer to come is in use, and none comes twice. -/
def Fresh (ids : List String) (db : Db) : Prop := ids.Nodup ∧ ∀ g ∈ ids, db.legs g = []

theorem legs_deletePortfolios {groupId : String} {ids : List ℕ} (h : db.legs groupId = []) :
    (ids.foldl (fun db id => db.deletePortfolio id) db).legs groupId = [] := by
  induction ids generalizing db with
  | nil => exact h
  | cons id ids ih =>
      refine ih ?_
      rw [legs_deletePortfolio, h, List.filter_nil]

/-- A command only makes rows of its own transfer. -/
theorem Change.legs_eq_nil {groupId : String} (hchange : Change N userId uuid? db db')
    (h : db.legs groupId = []) (hother : uuid? ≠ some groupId) : db'.legs groupId = [] := by
  cases hchange with
  | quiet _ hquiet => rw [hquiet.legs, h]
  | @transfer env body source dest usdValue db db₁ db₂ db₃ db' _ _ _ hopen hsell hbuy hsettle =>
      rw [hsettle.legs, legs_createTransactionRow groupId hbuy,
        legs_createTransactionRow groupId hsell, hopen.legs, h]
      have hleg : ∀ p dir, ¬ (transferLeg N env body p dir usdValue).transferGroupId =
          some groupId := fun p dir heq => hother heq
      rw [if_neg (hleg _ _), if_neg (hleg _ _)]
      rfl
  | dropTransfer _ _ _ hsettle =>
      rw [hsettle.legs, legs_dropLegs, h]
      exact ite_self _
  | createPortfolio _ hcreate hseed =>
      rw [hseed.legs]
      obtain ⟨-, portfolios, rfl, -⟩ := createPortfolio_ok hcreate
      exact h
  | dropPortfolios => exact legs_deletePortfolios h

theorem Fresh.change {c : Command} {commands : List Command}
    (h : Fresh (uuids (c :: commands)) db) (hchange : Change N userId c.uuid? db db') :
    (∀ g, c.uuid? = some g → db.legs g = []) ∧ Fresh (uuids commands) db' := by
  obtain ⟨hnodup, hunused⟩ := h
  unfold uuids at hnodup hunused
  cases huuid : c.uuid? with
  | none =>
      rw [List.filterMap_cons_none huuid] at hnodup hunused
      refine ⟨fun g hg => (by cases hg), hnodup, fun g hg => ?_⟩
      exact hchange.legs_eq_nil (hunused g hg) (by rw [huuid]; exact (Option.some_ne_none g).symm)
  | some own =>
      rw [List.filterMap_cons_some huuid] at hnodup hunused
      obtain ⟨hnew, hrest⟩ := List.nodup_cons.mp hnodup
      refine ⟨fun g hg => ?_, hrest, fun g hg => ?_⟩
      · cases hg
        exact hunused _ List.mem_cons_self
      · refine hchange.legs_eq_nil (hunused g (List.mem_cons_of_mem _ hg)) fun heq => hnew ?_
        rw [huuid] at heq
        rw [Option.some.inj heq]
        exact hg

/-! ## Other users' portfolios -/

theorem owner_of_view {p : ℕ} (h : db'.view p = db.view p) : db'.owner? p = db.owner? p :=
  congrArg (fun v => (Prod.fst v).map Portfolio.userId) h

theorem view_createTransactionRow {data : TransactionData} {p : ℕ} (hne : data.portfolioId ≠ p)
    (hrow : db.createTransactionRow data = .ok db') : db'.view p = db.view p := by
  obtain ⟨transactions, rfl, hrows⟩ := createTransactionRow_ok hrow
  refine congrArg (fun ts => (db.findPortfolioById p, assetsOf db p, ts)) ?_
  rw [hrows, List.filter_append, List.filter_cons_of_neg (by simpa using hne), List.filter_nil,
    List.append_nil]

theorem view_deletePortfolio {id p : ℕ} (hne : p ≠ id) :
    (db.deletePortfolio id).view p = db.view p := by
  unfold Db.view
  rw [findPortfolioById_deletePortfolio_of_ne hne]
  have hassets : assetsOf (db.deletePortfolio id) p = assetsOf db p := by
    apply filter_filter_of_kept
    intro a _ ha
    have ha : a.portfolioId = p := of_decide_eq_true ha
    simp [ha, hne]
  have hrows : ((db.deletePortfolio id).transactions.rows.filter fun t => t.portfolioId = p) =
      db.transactions.rows.filter fun t => t.portfolioId = p := by
    apply filter_filter_of_kept
    intro t _ ht
    have ht : t.portfolioId = p := of_decide_eq_true ht
    simp [ht, hne]
  rw [hassets, hrows]

theorem view_deletePortfolios {ids : List ℕ} {p : ℕ} (hp : p ∉ ids) :
    (ids.foldl (fun db id => db.deletePortfolio id) db).view p = db.view p := by
  induction ids generalizing db with
  | nil => rfl
  | cons id ids ih =>
      obtain ⟨hne, hrest⟩ := not_or.mp (mt List.mem_cons.mpr hp)
      rw [List.foldl_cons, ih hrest, view_deletePortfolio hne]

/-- The portfolios of the legs of a transfer have one owner. -/
theorem Paired.owner_eq {groupId : String} {s t : Transaction} {u : ℕ} (h : Paired N db)
    (hs : s ∈ db.legs groupId) (ht : t ∈ db.legs groupId) (hu : db.owner? s.portfolioId = some u) :
    db.owner? t.portfolioId = some u := by
  rcases h groupId with hnil | ⟨sell, buy, hlegs, hrest⟩
  · rw [hnil] at hs
    cases hs
  · rw [hrest] at hs ht
    obtain ⟨hs, -⟩ := List.mem_filter.mp hs
    obtain ⟨ht, hexists⟩ := List.mem_filter.mp ht
    obtain ⟨v, hv⟩ := Option.isSome_iff_exists.mp hexists
    rcases List.mem_pair.mp hs with rfl | rfl <;> rcases List.mem_pair.mp ht with rfl | rfl
    · exact hu
    · rw [hv, hlegs.owner u v hu hv]
    · rw [hv, hlegs.owner v u hv hu]
    · exact hu

/-- A command of another user leaves the portfolio as it is. -/
theorem Change.view_eq {p u : ℕ} (hchange : Change N userId uuid? db db') (h : Paired N db)
    (howner : db.owner? p = some u) (hother : userId ≠ u) : db'.view p = db.view p := by
  have hne : ∀ {q : ℕ}, db.owner? q = some userId → q ≠ p := by
    rintro q hq rfl
    exact hother (Option.some.inj (hq.symm.trans howner))
  cases hchange with
  | quiet howned hquiet => exact hquiet.view p fun hp => hne (howned p hp) rfl
  | @transfer env body source dest usdValue db db₁ db₂ db₃ db' hsource hdest _ hopen hsell hbuy
      hsettle =>
      have hoff : p ∉ ({source, dest} : Set ℕ) := by
        rintro (rfl | rfl)
        · exact hne hsource rfl
        · exact hne hdest rfl
      rw [hsettle.view p hoff, view_createTransactionRow (hne hdest) hbuy,
        view_createTransactionRow (hne hsource) hsell, hopen.view p hoff]
  | @dropTransfer t groupId db db' ht hgroup huser hsettle =>
      have hmem : t ∈ db.legs groupId := List.mem_filter.mpr ⟨ht, decide_eq_true hgroup⟩
      have hleg : ∀ leg ∈ db.legs groupId, leg.portfolioId ≠ p := fun leg hleg =>
        hne (h.owner_eq hmem hleg huser)
      rw [hsettle.view p fun hp => by
        obtain ⟨leg, hin, hp⟩ := hp
        exact hleg leg hin hp]
      refine congrArg (fun ts => (db.findPortfolioById p, assetsOf db p, ts)) ?_
      apply filter_filter_of_kept
      intro s hs hsp
      refine decide_eq_true fun hsg => ?_
      exact hleg s (List.mem_filter.mpr ⟨hs, decide_eq_true hsg⟩) (of_decide_eq_true hsp)
  | @createPortfolio mk _ q db db₁ db' _ hcreate hseed =>
      have hnew : p ≠ q := by
        rw [(next_createPortfolio hcreate).1]
        exact (lt_next_of_owner howner).ne
      rw [hseed.view p hnew]
      have hfind := findPortfolioById_createPortfolio hcreate hnew
      obtain ⟨-, portfolios, rfl, -⟩ := createPortfolio_ok hcreate
      exact congrArg (fun found => (found, assetsOf db p, db.transactions.rows.filter fun t =>
        t.portfolioId = p)) hfind
  | dropPortfolios howned => exact view_deletePortfolios fun hp => hne (howned p hp) rfl

/-! ## Runs -/

theorem references_run {commands : List Command} (h : References db)
    (hrun : Run (Serves N js) db commands db') : References db' :=
  hrun.invariant (fun _ _ _ hs hserve => hs.change (change_of_serve hserve)) h

theorem paired_run {commands : List Command} (h : Paired N db)
    (hfresh : Fresh (uuids commands) db) (hrun : Run (Serves N js) db commands db') :
    Paired N db' := by
  induction hrun with
  | nil => exact h
  | cons hserve _ ih =>
      have hchange := change_of_serve hserve
      obtain ⟨hown, hrest⟩ := hfresh.change hchange
      exact ih (h.change hown hchange) hrest

theorem view_run {commands : List Command} {p u : ℕ} (h : Paired N db)
    (hfresh : Fresh (uuids commands) db) (howner : db.owner? p = some u)
    (hother : ∀ c ∈ commands, c.userId ≠ u) (hrun : Run (Serves N js) db commands db') :
    db'.view p = db.view p := by
  induction hrun with
  | nil => rfl
  | cons hserve _ ih =>
      have hchange := change_of_serve hserve
      obtain ⟨hown, hrest⟩ := hfresh.change hchange
      have hview := hchange.view_eq h howner (hother _ List.mem_cons_self)
      rw [ih (h.change hown hchange) hrest ((owner_of_view hview).trans howner)
        fun c hc => hother c (List.mem_cons_of_mem _ hc), hview]

theorem references_start (tokens : TokenTable) : References (Db.start tokens) :=
  ⟨⟨fun _ ha => (by cases ha), fun _ ht => (by cases ht)⟩, fun _ ha => (by cases ha)⟩

theorem paired_start (tokens : TokenTable) : Paired N (Db.start tokens) := fun _ => .inl rfl

theorem fresh_start {tokens : TokenTable} {ids : List String} (h : ids.Nodup) :
    Fresh ids (Db.start tokens) := ⟨h, fun _ _ => rfl⟩

/-! ### What is gone stays gone -/

/-- The portfolio existed once, and does not any more. -/
def Gone (p : ℕ) (db : Db) : Prop := p < db.portfolios.next ∧ db.owner? p = none

theorem Gone.deletePortfolios {p : ℕ} (h : Gone p db) (ids : List ℕ) :
    Gone p (ids.foldl (fun db id => db.deletePortfolio id) db) := by
  induction ids generalizing db with
  | nil => exact h
  | cons id ids ih =>
      refine ih ⟨h.1, ?_⟩
      rw [owner_deletePortfolio, h.2]
      exact ite_self _

theorem Gone.quiet {p : ℕ} {S : Set ℕ} (h : Gone p db) (hquiet : Quiet S db db') : Gone p db' :=
  ⟨hquiet.next ▸ h.1, (hquiet.owners p).trans h.2⟩

theorem Gone.change {p : ℕ} (h : Gone p db) (hchange : Change N userId uuid? db db') :
    Gone p db' := by
  cases hchange with
  | quiet _ hquiet => exact h.quiet hquiet
  | transfer _ _ _ hopen hsell hbuy hsettle =>
      refine Gone.quiet ?_ hsettle
      obtain ⟨_, rfl, -⟩ := createTransactionRow_ok hsell
      obtain ⟨_, rfl, -⟩ := createTransactionRow_ok hbuy
      have hopened := h.quiet hopen
      exact ⟨hopened.1, hopened.2⟩
  | dropTransfer _ _ _ hsettle =>
      exact Gone.quiet (show Gone p (db.dropLegs _) from h) hsettle
  | createPortfolio _ hcreate hseed =>
      obtain ⟨hnew, hnext, -⟩ := next_createPortfolio hcreate
      refine Gone.quiet ⟨?_, ?_⟩ hseed
      · rw [hnext, hnew]
        exact h.1.trans (Nat.lt_succ_self _)
      · unfold Db.owner?
        rw [findPortfolioById_createPortfolio hcreate (hnew ▸ h.1.ne)]
        exact h.2
  | dropPortfolios => exact h.deletePortfolios _

/-- Nothing refers to a portfolio that does not exist. -/
theorem References.view_eq_nil {p : ℕ} (h : References db) (hnone : db.owner? p = none) :
    db.view p = (none, [], []) := by
  have hfind : db.findPortfolioById p = none := Option.map_eq_none_iff.mp hnone
  have hassets : assetsOf db p = [] := by
    refine List.filter_eq_nil_iff.mpr fun a ha hp => ?_
    have hsome := h.assets a ha
    rw [show a.portfolioId = p from of_decide_eq_true hp, hfind] at hsome
    cases hsome
  have hrows : (db.transactions.rows.filter fun t => t.portfolioId = p) = [] := by
    refine List.filter_eq_nil_iff.mpr fun t ht hp => ?_
    have hsome := h.transactions t ht
    rw [show t.portfolioId = p from of_decide_eq_true hp, hfind] at hsome
    cases hsome
  unfold Db.view
  rw [hfind, hassets, hrows]

/-! ## The system -/

/-- In every reachable state each asset names a portfolio and a token that exist and each
transaction a portfolio that does, and a portfolio that was deleted leaves no row, then or at
any later time. -/
theorem nothing_dangles {tokens : TokenTable} {before after : List Command}
    (hbefore : Run (Serves N js) (Db.start tokens) before db)
    (hafter : Run (Serves N js) db after db') :
    References db' ∧
      ∀ p < db.portfolios.next, db.owner? p = none → db'.view p = (none, [], []) := by
  have hrefs := references_run (references_run (references_start tokens) hbefore) hafter
  refine ⟨hrefs, fun p hp hnone => hrefs.view_eq_nil ?_⟩
  exact (hafter.invariant (fun _ _ _ hs hserve => Gone.change hs (change_of_serve hserve))
    (show Gone p db from ⟨hp, hnone⟩)).2

/-- A row that carries a transfer's id was made by a transfer among the commands. -/
theorem legs_eq_nil_of_run {commands : List Command} {groupId : String}
    (hrun : Run (Serves N js) db commands db') (h : db.legs groupId = [])
    (hother : groupId ∉ uuids commands) : db'.legs groupId = [] := by
  induction hrun with
  | nil => exact h
  | @cons s t u c commands hserve _ ih =>
      have hsplit : uuids (c :: commands) = c.uuid?.toList ++ uuids commands := by
        unfold uuids
        cases huuid : c.uuid? with
        | none => rw [List.filterMap_cons_none huuid]; rfl
        | some g => rw [List.filterMap_cons_some huuid]; rfl
      rw [hsplit, List.mem_append, not_or] at hother
      refine ih ((change_of_serve hserve).legs_eq_nil h fun huuid => hother.1 ?_) hother.2
      rw [huuid]
      exact List.mem_singleton_self _

/-- When no two transfers get one id, the rows with an id are none, or the two legs as the
transfer of that id wrote them, less the legs whose portfolio has been deleted. -/
theorem transfers_stay_whole {tokens : TokenTable} {commands : List Command}
    (huuids : (uuids commands).Nodup) (hrun : Run (Serves N js) (Db.start tokens) commands db) :
    ∀ groupId, db.legs groupId = [] ∨ groupId ∈ uuids commands ∧ Pair N groupId db := by
  intro groupId
  rcases paired_run (paired_start tokens) (fresh_start huuids) hrun groupId with hnil | hpair
  · exact .inl hnil
  · by_cases hmade : groupId ∈ uuids commands
    · exact .inr ⟨hmade, hpair⟩
    · exact .inl (legs_eq_nil_of_run hrun rfl hmade)

theorem fresh_append {tokens : TokenTable} {before after : List Command}
    (huuids : (uuids (before ++ after)).Nodup)
    (hrun : Run (Serves N js) (Db.start tokens) before db) : Fresh (uuids after) db := by
  unfold uuids at huuids
  rw [List.filterMap_append] at huuids
  obtain ⟨-, hnodup, hdisjoint⟩ := List.nodup_append.mp huuids
  refine ⟨hnodup, fun g hg => legs_eq_nil_of_run hrun rfl fun hmem => ?_⟩
  exact hdisjoint g hmem g hg rfl

/-- When no two transfers get one id, the commands of other users leave a portfolio, its
assets and its transactions exactly as they are, from any reachable state. -/
theorem users_stay_apart {tokens : TokenTable} {before after : List Command} {p u : ℕ}
    (huuids : (uuids (before ++ after)).Nodup)
    (hbefore : Run (Serves N js) (Db.start tokens) before db)
    (hafter : Run (Serves N js) db after db') (howner : db.owner? p = some u)
    (hother : ∀ c ∈ after, c.userId ≠ u) : db'.view p = db.view p := by
  have hfresh := fresh_append huuids hbefore
  have hnodup : (uuids before).Nodup := by
    unfold uuids at huuids ⊢
    rw [List.filterMap_append] at huuids
    exact (List.nodup_append.mp huuids).1
  exact view_run (paired_run (paired_start tokens) (fresh_start hnodup) hbefore) hfresh howner
    hother hafter

/-! ### Two users -/

/-- User 1 transfers from one portfolio to another; user 2 has a portfolio as well. -/
def twoUsers : List Command :=
  [.createPortfolio sampleEnv 1 none [], .createPortfolio sampleEnv 1 none [],
    .createPortfolio sampleEnv 2 none [],
    .request (sampleRequest (.createTransaction (trade .buy ⟨2, amount_2⟩ ⟨100, bounded_100⟩ 10))),
    .request (sampleRequest
      (.transfer { destPortfolioId := 2, symbol := eth, amount := ⟨1, amount_1⟩ }))]

/-- The state after the commands, when all of them succeed. -/
def serveAll (N : Numeric) (js : Js) (commands : List Command) (db : Db) : Except Failure Db :=
  commands.foldlM (fun db c => serve N js c db) db

theorem run_of_serveAll {commands : List Command} (h : serveAll N js commands db = .ok db') :
    Run (Serves N js) db commands db' := by
  unfold serveAll at h
  induction commands generalizing db with
  | nil =>
      cases h
      exact .nil _
  | cons c commands ih =>
      rw [List.foldlM_cons] at h
      obtain ⟨db₁, hfirst, h⟩ := bind_eq_ok h
      exact .cons hfirst (ih h)

/-- Portfolio 2 goes, with its leg of the transfer; then its user creates another. -/
def destDeleted (db : Db) : Bool :=
  succeedsWith (fun db' => decide (2 < db'.portfolios.next) && decide (db.owner? 1 = some 1) &&
      decide (db'.owner? 2 = none) && decide ((db'.legs sampleEnv.uuid).length = 1) &&
      succeedsWith (fun _ => true)
        (serveAll decimal20_8 sampleJs [.createPortfolio sampleEnv 1 none []] db'))
    (serveAll decimal20_8 sampleJs [.deletePortfolioById 1 2] db)

theorem twoUsers_served :
    ∃ db, Run (Serves decimal20_8 sampleJs) (Db.start sampleDb.tokens) twoUsers db ∧
      destDeleted db = true ∧
      succeedsWith (fun _ => true)
        (serveAll decimal20_8 sampleJs [.createPortfolio sampleEnv 2 none [], .deleteMe 2] db) =
          true := by
  have hrun : succeedsWith (fun db => destDeleted db && succeedsWith (fun _ => true)
        (serveAll decimal20_8 sampleJs [.createPortfolio sampleEnv 2 none [], .deleteMe 2] db))
      (serveAll decimal20_8 sampleJs twoUsers (Db.start sampleDb.tokens)) = true := by
    decide +kernel
  obtain ⟨db, hok, hcheck⟩ := exists_of_succeedsWith hrun
  exact ⟨db, run_of_serveAll hok, Bool.and_eq_true_iff.mp hcheck⟩

theorem nothing_dangles_twoUsers :
    ∃ db db', Run (Serves decimal20_8 sampleJs) (Db.start sampleDb.tokens)
        (twoUsers ++ [.deletePortfolioById 1 2]) db ∧
      Run (Serves decimal20_8 sampleJs) db [.createPortfolio sampleEnv 1 none []] db' ∧
      References db' ∧ db'.view 2 = (none, [], []) := by
  obtain ⟨db₁, hrun, hdelete, -⟩ := twoUsers_served
  obtain ⟨db, hok, hcheck⟩ := exists_of_succeedsWith hdelete
  obtain ⟨hcheck, hagain⟩ := Bool.and_eq_true_iff.mp hcheck
  obtain ⟨hcheck, -⟩ := Bool.and_eq_true_iff.mp hcheck
  obtain ⟨hcheck, hgone⟩ := Bool.and_eq_true_iff.mp hcheck
  obtain ⟨hlt, -⟩ := Bool.and_eq_true_iff.mp hcheck
  obtain ⟨db', hok', -⟩ := exists_of_succeedsWith hagain
  have hbefore := hrun.append (run_of_serveAll hok)
  have hafter := run_of_serveAll hok'
  obtain ⟨hrefs, hempty⟩ := nothing_dangles hbefore hafter
  exact ⟨db, db', hbefore, hafter, hrefs,
    hempty 2 (of_decide_eq_true hlt) (of_decide_eq_true hgone)⟩

theorem transfers_stay_whole_twoUsers :
    ∃ db', Run (Serves decimal20_8 sampleJs) (Db.start sampleDb.tokens)
        (twoUsers ++ [.deletePortfolioById 1 2]) db' ∧
      (db'.legs sampleEnv.uuid).length = 1 ∧ Pair decimal20_8 sampleEnv.uuid db' := by
  obtain ⟨db, hrun, hdelete, -⟩ := twoUsers_served
  obtain ⟨db', hok, hcheck⟩ := exists_of_succeedsWith hdelete
  obtain ⟨hcheck, -⟩ := Bool.and_eq_true_iff.mp hcheck
  have hall := hrun.append (run_of_serveAll hok)
  have hone := of_decide_eq_true (Bool.and_eq_true_iff.mp hcheck).2
  refine ⟨db', hall, hone, ?_⟩
  rcases transfers_stay_whole (by decide) hall sampleEnv.uuid with hnil | ⟨-, hpair⟩
  · rw [hnil] at hone
    cases hone
  · exact hpair

theorem users_stay_apart_twoUsers :
    ∃ db db', Run (Serves decimal20_8 sampleJs) (Db.start sampleDb.tokens) twoUsers db ∧
      Run (Serves decimal20_8 sampleJs) db [.createPortfolio sampleEnv 2 none [], .deleteMe 2]
        db' ∧ db'.view 1 = db.view 1 := by
  obtain ⟨db, hrun, hdelete, hother⟩ := twoUsers_served
  obtain ⟨db', hok, -⟩ := exists_of_succeedsWith hother
  obtain ⟨_, -, hcheck⟩ := exists_of_succeedsWith hdelete
  obtain ⟨hcheck, -⟩ := Bool.and_eq_true_iff.mp hcheck
  obtain ⟨hcheck, -⟩ := Bool.and_eq_true_iff.mp hcheck
  obtain ⟨hcheck, -⟩ := Bool.and_eq_true_iff.mp hcheck
  have howner := of_decide_eq_true (Bool.and_eq_true_iff.mp hcheck).2
  have hafter := run_of_serveAll hok
  refine ⟨db, db', hrun, hafter, users_stay_apart (by decide) hrun hafter howner ?_⟩
  intro c hc
  rcases List.mem_pair.mp hc with rfl | rfl
  · exact Nat.succ_ne_self 1
  · exact Nat.succ_ne_self 1

end Neonfi.Ledger
