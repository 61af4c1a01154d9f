import Neonfi.Ledger.Scope
import Neonfi.Ledger.Transfers

/-!
# The whole ledger as one system

Besides the requests on a portfolio there are the ones that make portfolios and take them away:
`createPortfolio`, `deletePortfolioById` and `deleteMe`.  `change_of_serve` says once what any
command can do to the ledger; every invariant of the system is derived from it.
-/

namespace Neonfi.Ledger

open Lib

/-! ## Portfolios and accounts go -/

/-- `prisma.portfolio.delete`.  The schema lets its assets and transactions go with it. -/
def Db.deletePortfolio (id : ℕ) (db : Db) : Db :=
  { db with
    portfolios := db.portfolios.filter fun p => p.id ≠ id
    assets := db.assets.filter fun a => a.portfolioId ≠ id
    transactions := db.transactions.filter fun t => t.portfolioId ≠ id }

def deletePortfolioById (userId id : ℕ) (db : Db) : Except Failure Db := do
  let portfolio ← require (db.findPortfolioById id) (transactionError 403 "FORBIDDEN" "Forbidden")
  ensure (portfolio.userId = userId) (transactionError 403 "FORBIDDEN" "Forbidden")
  return db.deletePortfolio id

/-- The portfolios that go with an account. -/
def Db.ownedIds (userId : ℕ) (db : Db) : List ℕ :=
  (db.portfolios.rows.filter fun p => p.userId = userId).map Portfolio.id

/-- `prisma.user.delete`.  The schema lets the user's portfolios go with the account. -/
def Db.deleteUser (userId : ℕ) (db : Db) : Db :=
  (db.ownedIds userId).foldl (fun db id => db.deletePortfolio id) db

/-! ## Commands -/

inductive Command
  | request (r : Request)
  | createPortfolio (env : Env) (userId : ℕ) (startingBalance : Option DecimalStr)
      (assets : List SeedAsset)
  | deletePortfolioById (userId id : ℕ)
  | deleteMe (userId : ℕ)

namespace Command

def userId : Command → ℕ
  | request r => r.userId
  | createPortfolio _ userId _ _ => userId
  | deletePortfolioById userId _ => userId
  | deleteMe userId => userId

/-- The id that a transfer gives its legs. -/
def uuid? : Command → Option String
  | request ⟨_, _, env, .transfer _⟩ => some env.uuid
  | _ => none

end Command

/-- The ids of the transfers among the commands, in order. -/
def uuids (commands : List Command) : List String := commands.filterMap Command.uuid?

section Serve

variable (N : Numeric) (js : Js)

def serve : Command → Db → Except Failure Db
  | .request r, db => handle N js r db
  | .createPortfolio env userId startingBalance assets, db =>
      (createManualPortfolio N env userId startingBalance assets db).map Prod.snd
  | .deletePortfolioById userId id, db => deletePortfolioById userId id db
  | .deleteMe userId, db => .ok (db.deleteUser userId)

/-- One command that succeeds. -/
def Serves (db : Db) (c : Command) (db' : Db) : Prop := serve N js c db = .ok db'

end Serve

/-- No portfolio yet; the catalog is what it is. -/
def Db.start (tokens : TokenTable) : Db := ⟨tokens, .empty, .empty, .empty⟩

/-! ## What a command can do -/

/-- Both legs of a transfer go. -/
def Db.dropLegs (groupId : String) (db : Db) : Db :=
  { db with
    transactions := db.transactions.filter fun t => t.transferGroupId ≠ some groupId }

/-- The portfolios that the legs of a transfer stand in. -/
def Db.legPortfolios (groupId : String) (db : Db) : Set ℕ :=
  { p | ∃ leg ∈ db.legs groupId, leg.portfolioId = p }

/-- What a command of a user does to the ledger, with the id of the transfer it makes. -/
inductive Change (N : Numeric) (userId : ℕ) : Option String → Db → Db → Prop
  | quiet {uuid? : Option String} {S : Set ℕ} {db db' : Db} :
      (∀ p ∈ S, db.owner? p = some userId) → Quiet S db db' → Change N userId uuid? db db'
  | transfer {env : Env} {body : TransferBody} {source dest : ℕ} {usdValue : ℚ}
      {db db₁ db₂ db₃ db' : Db} :
      db.owner? source = some userId → db.owner? dest = some userId → source ≠ dest →
      Quiet {source, dest} db db₁ →
      db₁.createTransactionRow (transferLeg N env body source .sell usdValue) = .ok db₂ →
      db₂.createTransactionRow (transferLeg N env body dest .buy usdValue) = .ok db₃ →
      Quiet {source, dest} db₃ db' → Change N userId (some env.uuid) db db'
  | dropTransfer {t : Transaction} {groupId : String} {db db' : Db} :
      t ∈ db.transactions.rows → t.transferGroupId = some groupId →
      db.owner? t.portfolioId = some userId →
      Quiet (db.legPortfolios groupId) (db.dropLegs groupId) db' → Change N userId none db db'
  | createPortfolio {mk : ℕ → Portfolio} {hmk : ∀ n, (mk n).id = n} {p : ℕ} {db db₁ db' : Db} :
      (∀ n, (mk n).userId = userId) → db.createPortfolio mk hmk = .ok (p, db₁) →
      Quiet {p} db₁ db' → Change N userId none db db'
  | dropPortfolios {ids : List ℕ} {db : Db} :
      (∀ id ∈ ids, db.owner? id = some userId) →
      Change N userId none db (ids.foldl (fun db id => db.deletePortfolio id) db)

/-! ### Requests on one portfolio -/

theorem owner_of_found {db : Db} {p : ℕ} {portfolio : Portfolio}
    (h : db.findPortfolioById p = some portfolio) : db.owner? p = some portfolio.userId := by
  unfold Db.owner?
  rw [h]
  rfl

theorem isSome_token_of_symbol {db : Db} {symbol : String} {token : Token}
    (h : db.findTokenBySymbol symbol = some token) : (db.findTokenById token.id).isSome := by
  rw [findTokenById_of_symbol h]
  rfl

namespace Quiet

variable {N : Numeric} {js : Js} {env : Env} {portfolio : Portfolio} {S : Set ℕ} {db db' : Db}

theorem findTokenById (h : Quiet S db db') (tokenId : ℕ) :
    db'.findTokenById tokenId = db.findTokenById tokenId :=
  congrArg (fun T : TokenTable => T.find? tokenId) h.tokens

theorem createTrade {body : CreateTransactionBody} {trade : TradeFields} (hp : portfolio.id ∈ S)
    (hrun : Ledger.createTrade N env portfolio body trade db = .ok db') : Quiet S db db' := by
  unfold Ledger.createTrade at hrun
  obtain ⟨token, htoken, hrun⟩ := bind_eq_ok hrun
  obtain ⟨auto, -, hrun⟩ := bind_eq_ok hrun
  obtain ⟨-, -, hrun⟩ := bind_eq_ok hrun
  obtain ⟨db₁, hcreate, hrun⟩ := bind_eq_ok hrun
  obtain ⟨db₂, hinsert, hrun⟩ := bind_eq_ok hrun
  have hopened : Quiet S db db₁ :=
    createIfNeeded hp (isSome_token_of_symbol (require_ok htoken)) hcreate
  have hrow : Quiet S db₁ db₂ := createTransactionRow hp rfl (insertTransaction_ok hinsert)
  exact (((hopened.trans hrow).trans (recalcAsset hp)).trans (recalcTotal hp)).commit hrun

theorem createTransaction {body : CreateTransactionBody} (hp : portfolio.id ∈ S)
    (hrun : Ledger.createTransaction N env portfolio body db = .ok db') : Quiet S db db' := by
  unfold Ledger.createTransaction at hrun
  obtain ⟨-, -, hrun⟩ := bind_eq_ok hrun
  cases hpayload : body.payload with
  | native trade | erc20 trade info =>
      rw [hpayload] at hrun
      exact createTrade hp hrun
  | nft nft =>
      rw [hpayload] at hrun
      obtain ⟨db₁, hinsert, hrun⟩ := bind_eq_ok hrun
      exact (createTransactionRow hp rfl (insertTransaction_ok hinsert)).commit hrun

theorem single_of_own {txId : ℕ} {existing : Transaction} (hp : portfolio.id ∈ S)
    (hown : findOwnTransaction portfolio txId db = .ok existing)
    (hgroup : existing.transferGroupId = none) : Single S txId db := by
  obtain ⟨hmem, hid, hportfolio⟩ := SoundExcept.findOwnTransaction_ok hown
  intro t ht htx
  have hsame : t = existing := SerialTable.eq_of_id_eq ht hmem (htx.trans hid.symm)
  rw [hsame, hportfolio]
  exact ⟨hp, hgroup⟩

theorem updateTransaction {txId : ℕ} {body : UpdateTransactionBody} (hp : portfolio.id ∈ S)
    (hrun : Ledger.updateTransaction N env portfolio txId body db = .ok db') :
    Quiet S db db' := by
  unfold Ledger.updateTransaction at hrun
  obtain ⟨-, -, hrun⟩ := bind_eq_ok hrun
  obtain ⟨existing, hown, hrun⟩ := bind_eq_ok hrun
  obtain ⟨_, hgroup, hrun⟩ := bind_eq_ok hrun
  obtain ⟨⟨old, new⟩, -, hrun⟩ := bind_eq_ok hrun
  have hpatched : Quiet S db
      (db.updateTransactionRow txId (body.apply N env db) (fun _ => rfl) fun _ => rfl) :=
    updateTransactionRow (single_of_own hp hown (ensure_ok hgroup)) (fun _ => rfl) fun _ => rfl
  dsimp only at hrun
  split at hrun
  · exact (hpatched.trans (recalcPatched hp)).commit hrun
  · exact hpatched.commit hrun

theorem insertPrepared {rows : List PreparedTxRow} (hp : portfolio.id ∈ S)
    (hnames : ∀ r ∈ rows, (db.findTokenById r.tokenId).isSome)
    (hrun : rows.foldlM (Ledger.insertPrepared N portfolio.id) db = .ok db') :
    Quiet S db db' := by
  refine foldlM_ok_invariant (fun r hr db₁ db₂ h₁ hinsert => ?_) Quiet.refl hrun
  unfold Ledger.insertPrepared at hinsert
  obtain ⟨db₃, hcreate, hinsert⟩ := bind_eq_ok hinsert
  have hopened : Quiet S db₁ db₃ :=
    createIfNeeded hp (by rw [h₁.findTokenById]; exact hnames r hr) hcreate
  exact (h₁.trans hopened).trans (createTransactionRow hp rfl hinsert)

theorem bulkTransactions {body : BulkBody} {result : Db × BulkResult} (hp : portfolio.id ∈ S)
    (hrun : bulkCreateTransactions N js env portfolio body db = .ok result) :
    Quiet S db result.1 := by
  obtain ⟨-, hsame | ⟨rows, hnames, hwrite⟩⟩ := bulkCreateTransactions_ok hrun
  · rw [hsame]
    exact refl
  · unfold writePrepared at hwrite
    obtain ⟨db₁, hinsert, hwrite⟩ := bind_eq_ok hwrite
    refine (((insertPrepared hp (fun r hr => ?_) hinsert).trans
      (foldl fun _ _ _ => recalcAsset hp)).trans (recalcTotal hp)).commit hwrite
    obtain ⟨trade, token, -, htoken, hid⟩ := hnames r hr
    rw [hid]
    exact isSome_token_of_symbol htoken

theorem addAsset {userId : ℕ} {body : CreateAssetBody} (hp : portfolio.id ∈ S)
    (hrun : Ledger.addAsset N userId env portfolio body db = .ok db') : Quiet S db db' := by
  unfold Ledger.addAsset at hrun
  obtain ⟨-, -, hrun⟩ := bind_eq_ok hrun
  obtain ⟨-, -, hrun⟩ := bind_eq_ok hrun
  obtain ⟨token, htoken, hrun⟩ := bind_eq_ok hrun
  obtain ⟨-, -, hrun⟩ := bind_eq_ok hrun
  obtain ⟨-, -, hrun⟩ := bind_eq_ok hrun
  obtain ⟨opening, -, hrun⟩ := bind_eq_ok hrun
  obtain ⟨db₁, hcreate, hrun⟩ := bind_eq_ok hrun
  have hknown : (db.findTokenById body.tokenId).isSome := by
    rw [require_ok htoken]
    rfl
  exact (((createAsset hp hknown hcreate).trans (recalcAsset hp)).trans (recalcTotal hp)).commit
    hrun

theorem updateAsset {assetId : ℕ × ℕ} {body : UpdateAssetBody} (hp : portfolio.id ∈ S)
    (hrun : Ledger.updateAsset N env portfolio assetId body db = .ok db') : Quiet S db db' := by
  unfold Ledger.updateAsset at hrun
  obtain ⟨-, -, hrun⟩ := bind_eq_ok hrun
  obtain ⟨existing, hown, hrun⟩ := bind_eq_ok hrun
  obtain ⟨-, -, hportfolio⟩ := SoundExcept.findOwnAsset_ok hown
  rw [← hportfolio] at hp
  split at hrun
  · unfold Ledger.editOpening at hrun
    obtain ⟨-, -, hrun⟩ := bind_eq_ok hrun
    obtain ⟨opening, -, hrun⟩ := bind_eq_ok hrun
    rw [hportfolio] at hp
    exact (((updateAssetRow (hportfolio ▸ hp)).trans (recalcAsset hp)).trans
      (recalcTotal hp)).commit hrun
  · split at hrun
    · exact (updateAssetRow hp).commit hrun
    · cases hrun
      exact refl

theorem removeAsset {assetId : ℕ × ℕ} (hp : portfolio.id ∈ S)
    (hrun : Ledger.removeAsset N portfolio assetId db = .ok db') : Quiet S db db' := by
  unfold Ledger.removeAsset at hrun
  obtain ⟨-, -, hrun⟩ := bind_eq_ok hrun
  obtain ⟨existing, hown, hrun⟩ := bind_eq_ok hrun
  obtain ⟨-, -, hportfolio⟩ := SoundExcept.findOwnAsset_ok hown
  have hkey : existing.key.1 ∈ S := by
    show existing.portfolioId ∈ S
    rw [hportfolio]
    exact hp
  exact ((deleteAsset hkey).trans (recalcTotal hp)).commit hrun

theorem bulkAssets {userId : ℕ} {body : BulkBody} {result : Db × BulkResult}
    (hp : portfolio.id ∈ S)
    (hrun : bulkCreateAssets N js env userId portfolio body db = .ok result) :
    Quiet S db result.1 := by
  obtain ⟨-, hsame | ⟨rows, hknown, hwrite⟩⟩ := bulkCreateAssets_ok hrun
  · rw [hsame]
    exact refl
  · unfold writeOpenings at hwrite
    obtain ⟨db₁, hinsert, hwrite⟩ := bind_eq_ok hwrite
    have hrows : Quiet S db db₁ := by
      refine foldlM_ok_invariant (fun r hr db₂ db₃ h₂ hfirst => ?_) Quiet.refl hinsert
      unfold insertOpening at hfirst
      obtain ⟨db₄, hcreate, hfirst⟩ := bind_eq_ok hfirst
      cases hfirst
      obtain ⟨token, htoken⟩ := hknown r hr
      have hasset : Quiet S db₂ db₄ := createAsset hp (by
        show (db₂.findTokenById r.tokenId).isSome
        rw [h₂.findTokenById, htoken]
        rfl) hcreate
      exact (h₂.trans hasset).trans (recalcAsset hp)
    exact (hrows.trans (recalcTotal hp)).commit hwrite

/-! ### A new portfolio -/

theorem seedAssets {plan : Plan} {p : ℕ} {seen : List ℕ} {seeds : List SeedAsset} (hp : p ∈ S)
    (hrun : Ledger.seedAssets N env plan p seen seeds db = .ok db') : Quiet S db db' := by
  induction seeds generalizing seen db with
  | nil =>
      cases hrun
      exact refl
  | cons seed seeds ih =>
      obtain ⟨db₁, hseed, hrun⟩ := bind_eq_ok hrun
      refine trans ?_ (ih hrun)
      unfold Ledger.seedAsset at hseed
      obtain ⟨-, -, hseed⟩ := bind_eq_ok hseed
      obtain ⟨token, htoken, hseed⟩ := bind_eq_ok hseed
      obtain ⟨-, -, hseed⟩ := bind_eq_ok hseed
      obtain ⟨db₂, hcreate, hseed⟩ := bind_eq_ok hseed
      have hknown : (db.findTokenById seed.tokenId).isSome := by
        rw [require_ok htoken]
        rfl
      have hcreated : Quiet S db db₂ := createAsset hp hknown hcreate
      split at hseed
      · split at hseed
        · unfold seedAcquisitionInTx at hseed
          obtain ⟨db₃, hrow, hseed⟩ := bind_eq_ok hseed
          cases hseed
          exact ((hcreated.trans (createTransactionRow hp rfl hrow)).trans (recalcAsset hp)).trans
            (recalcTotal hp)
        · cases hseed
          exact hcreated
      · cases hseed
        exact hcreated

end Quiet

/-! ### Transfers -/

theorem deleteRows_eq (legs : List Transaction) (db : Db) :
    legs.foldl (fun db leg => db.deleteTransactionRow leg.id) db =
      { db with
        transactions := db.transactions.filter fun t => ∀ leg ∈ legs, t.id ≠ leg.id } := by
  induction legs generalizing db with
  | nil =>
      refine Db.ext rfl rfl rfl (SerialTable.ext ?_ rfl)
      simp
  | cons leg legs ih =>
      rw [List.foldl_cons, ih]
      refine Db.ext rfl rfl rfl (SerialTable.ext ?_ rfl)
      show (db.transactions.rows.filter _).filter _ = db.transactions.rows.filter _
      rw [List.filter_filter]
      apply List.filter_congr
      intro t _
      rw [Bool.eq_iff_iff, Bool.and_eq_true_iff]
      simp only [decide_eq_true_eq, List.forall_mem_cons]
      exact And.comm

/-- Deleting the legs of a transfer one by one takes exactly its rows. -/
theorem deleteLegs_eq (groupId : String) (db : Db) :
    (db.legs groupId).foldl (fun db leg => db.deleteTransactionRow leg.id) db =
      db.dropLegs groupId := by
  rw [deleteRows_eq]
  refine Db.ext rfl rfl rfl (SerialTable.ext ?_ rfl)
  apply List.filter_congr
  intro t ht
  rw [Bool.eq_iff_iff]
  simp only [decide_eq_true_eq]
  constructor
  · intro h hgroup
    exact h t (List.mem_filter.mpr ⟨ht, decide_eq_true hgroup⟩) rfl
  · intro h leg hleg hid
    obtain ⟨hmem, hgroup⟩ := List.mem_filter.mp hleg
    rw [SerialTable.eq_of_id_eq ht hmem hid] at h
    exact h (of_decide_eq_true hgroup)

theorem resolveDest_owner {source dest : Portfolio} {destPortfolioId : ℕ} {db : Db}
    (h : resolveDest source destPortfolioId db = .ok dest) :
    db.owner? dest.id = some source.userId := by
  unfold resolveDest at h
  obtain ⟨dest', hfind, h⟩ := bind_eq_ok h
  obtain ⟨_, howner, h⟩ := bind_eq_ok h
  obtain ⟨_, -, h⟩ := bind_eq_ok h
  obtain ⟨_, -, h⟩ := bind_eq_ok h
  cases h
  have hfound := require_ok hfind
  rw [(SerialTable.find?_eq_some_iff.mp hfound).2, owner_of_found hfound, ensure_ok howner]

namespace Change

variable {N : Numeric} {js : Js} {env : Env} {portfolio : Portfolio} {userId : ℕ} {db db' : Db}

theorem createCrossPortfolioTransfer {body : TransferBody}
    (howner : db.owner? portfolio.id = some userId) (huser : portfolio.userId = userId)
    (hrun : Ledger.createCrossPortfolioTransfer N env portfolio body db = .ok db') :
    Change N userId (some env.uuid) db db' := by
  unfold Ledger.createCrossPortfolioTransfer at hrun
  obtain ⟨-, -, hrun⟩ := bind_eq_ok hrun
  obtain ⟨dest, hdest, hrun⟩ := bind_eq_ok hrun
  obtain ⟨token, htoken, hrun⟩ := bind_eq_ok hrun
  obtain ⟨sourceAsset, -, hrun⟩ := bind_eq_ok hrun
  obtain ⟨db₁, hcreate, hrun⟩ := bind_eq_ok hrun
  obtain ⟨db₂, hsell, hrun⟩ := bind_eq_ok hrun
  obtain ⟨db₃, hbuy, hrun⟩ := bind_eq_ok hrun
  have hsource : portfolio.id ∈ ({portfolio.id, dest.id} : Set ℕ) := Set.mem_insert _ _
  have htarget : dest.id ∈ ({portfolio.id, dest.id} : Set ℕ) := Set.mem_insert_of_mem _ rfl
  refine .transfer howner (huser ▸ resolveDest_owner hdest) (resolveDest_ok hdest).2.symm
    (Quiet.createIfNeeded htarget (isSome_token_of_symbol (require_ok htoken)) hcreate)
    hsell hbuy ?_
  exact ((((Quiet.recalcAsset hsource).trans (Quiet.recalcTotal hsource)).trans
    (Quiet.recalcAsset htarget)).trans (Quiet.recalcTotal htarget)).commit hrun

theorem deleteTransaction {txId : ℕ} (howner : db.owner? portfolio.id = some userId)
    (hrun : Ledger.deleteTransaction N portfolio txId db = .ok db') :
    Change N userId none db db' := by
  unfold Ledger.deleteTransaction at hrun
  obtain ⟨-, -, hrun⟩ := bind_eq_ok hrun
  obtain ⟨existing, hown, hrun⟩ := bind_eq_ok hrun
  obtain ⟨hmem, -, hportfolio⟩ := SoundExcept.findOwnTransaction_ok hown
  split at hrun
  · next groupId hgroup =>
      unfold Ledger.deleteTransfer at hrun
      change (Ledger.recalcTargets N _ _ ((db.legs groupId).foldl _ db)).commit N = .ok db' at hrun
      rw [deleteLegs_eq] at hrun
      refine .dropTransfer hmem hgroup (hportfolio ▸ howner) (Quiet.commit ?_ hrun)
      refine Quiet.recalcTargets (fun target htarget => ?_) fun id hid => ?_
      · obtain ⟨leg, hleg, hrecalc⟩ := List.mem_filterMap.mp htarget
        unfold recalcTarget? at hrecalc
        split at hrecalc
        · cases hrecalc
        · obtain ⟨token, -, rfl⟩ := Option.map_eq_some_iff.mp hrecalc
          exact ⟨leg, hleg, rfl⟩
      · obtain ⟨leg, hleg, rfl⟩ := List.mem_map.mp (List.mem_dedup.mp hid)
        exact ⟨leg, hleg, rfl⟩
  · next hgroup =>
      have hp : portfolio.id ∈ ({portfolio.id} : Set ℕ) := rfl
      have hsingle := Quiet.single_of_own hp hown hgroup
      refine .quiet (S := {portfolio.id}) (fun p hmem => ?_) ?_
      · rw [Set.mem_singleton_iff.mp hmem]
        exact howner
      · split at hrun
        · exact (Quiet.deleteTransactionRow hsingle).commit hrun
        · exact (((Quiet.deleteTransactionRow hsingle).trans (Quiet.recalcAsset hp)).trans
            (Quiet.recalcTotal hp)).commit hrun

theorem request {r : Request} (hrun : handle N js r db = .ok db') :
    Change N r.userId (Command.request r).uuid? db db' := by
  unfold handle at hrun
  obtain ⟨portfolio, hown, hrun⟩ := bind_eq_ok hrun
  obtain ⟨hfound, hid, huser⟩ := ownedPortfolio_ok hown
  have howner : db.owner? portfolio.id = some r.userId := by
    rw [hid, owner_of_found hfound, huser]
  have hquiet : ∀ {uuid? db'}, Quiet {portfolio.id} db db' →
      Change N r.userId uuid? db db' := by
    intro uuid? db' hquiet
    refine .quiet (fun p hmem => ?_) hquiet
    rw [Set.mem_singleton_iff.mp hmem]
    exact howner
  have hp : portfolio.id ∈ ({portfolio.id} : Set ℕ) := rfl
  obtain ⟨userId, portfolioId, env, action⟩ := r
  cases action with
  | createTransaction body => exact hquiet (Quiet.createTransaction hp hrun)
  | updateTransaction txId body => exact hquiet (Quiet.updateTransaction hp hrun)
  | deleteTransaction txId => exact deleteTransaction howner hrun
  | transfer body => exact createCrossPortfolioTransfer howner huser hrun
  | bulkTransactions body =>
      obtain ⟨result, hbulk⟩ := map_fst_ok hrun
      exact hquiet (Quiet.bulkTransactions hp hbulk)
  | addAsset body => exact hquiet (Quiet.addAsset hp hrun)
  | updateAsset assetId body => exact hquiet (Quiet.updateAsset hp hrun)
  | removeAsset assetId => exact hquiet (Quiet.removeAsset hp hrun)
  | bulkAssets body =>
      obtain ⟨result, hbulk⟩ := map_fst_ok hrun
      exact hquiet (Quiet.bulkAssets hp hbulk)

theorem createManualPortfolio {p : ℕ} {startingBalance : Option DecimalStr}
    {assets : List SeedAsset}
    (hrun : Ledger.createManualPortfolio N env userId startingBalance assets db = .ok (p, db')) :
    Change N userId none db db' := by
  unfold Ledger.createManualPortfolio at hrun
  obtain ⟨⟨p', db₁⟩, hcreate, hrun⟩ := bind_eq_ok hrun
  obtain ⟨db₂, hseeds, hrun⟩ := bind_eq_ok hrun
  obtain ⟨db₃, hcommit, hrun⟩ := bind_eq_ok hrun
  cases hrun
  have hseeded : Quiet {p} db₁ db₂ := Quiet.seedAssets (Set.mem_singleton p) hseeds
  exact .createPortfolio (fun _ => rfl) hcreate (hseeded.commit hcommit)

end Change

theorem map_snd_ok {α : Type} {x : Except Failure (α × Db)} {db' : Db}
    (h : x.map Prod.snd = .ok db') : ∃ a, x = .ok (a, db') := by
  cases x with
  | error e => cases h
  | ok r =>
      cases h
      exact ⟨r.1, rfl⟩

theorem owner_of_mem_ownedIds {db : Db} {userId id : ℕ} (h : id ∈ db.ownedIds userId) :
    db.owner? id = some userId := by
  obtain ⟨portfolio, hmem, rfl⟩ := List.mem_map.mp h
  obtain ⟨hrow, huser⟩ := List.mem_filter.mp hmem
  rw [owner_of_found (SerialTable.find?_eq_some_iff.mpr ⟨hrow, rfl⟩), of_decide_eq_true huser]

/-- Everything that a served command can have done. -/
theorem change_of_serve {N : Numeric} {js : Js} {c : Command} {db db' : Db}
    (hrun : serve N js c db = .ok db') : Change N c.userId c.uuid? db db' := by
  cases c with
  | request r => exact Change.request hrun
  | createPortfolio env userId startingBalance assets =>
      obtain ⟨p, hcreate⟩ := map_snd_ok hrun
      exact Change.createManualPortfolio hcreate
  | deletePortfolioById userId id =>
      change deletePortfolioById userId id db = .ok db' at hrun
      unfold deletePortfolioById at hrun
      obtain ⟨portfolio, hfind, hrun⟩ := bind_eq_ok hrun
      obtain ⟨_, huser, hrun⟩ := bind_eq_ok hrun
      cases hrun
      refine @Change.dropPortfolios N userId [id] db fun p hp => ?_
      rw [List.mem_singleton.mp hp, owner_of_found (require_ok hfind), ensure_ok huser]
  | deleteMe userId =>
      cases hrun
      exact .dropPortfolios fun id hid => owner_of_mem_ownedIds hid

end Neonfi.Ledger
