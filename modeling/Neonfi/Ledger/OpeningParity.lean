import Neonfi.Ledger.BulkParity

/-!
# Bulk import of opening positions against single adds

`bulkCreateAssets` decides its rows on the assets it loaded once and writes all of them in one
transaction; `addAsset` decides and writes one position at a time.  Both runs are kept in step:
they take the same rows as long as every position that is admitted also fits its columns.
-/

namespace Neonfi.Ledger

open Lib

/-! ## One position at a time -/

/-- The cells of the row pass the checks of the bulk endpoint, whatever its token. -/
structure WellFormedOpening (js : Js) (env : Env) (raw : BulkRow) : Prop where
  symbol : rowSymbol js raw ≠ ""
  quantity : ∀ row, numberErrors row "quantity" (cellStr raw "quantity") = []
  cost : ∀ row, costErrors env row raw = []

section Definitions

variable (N : Numeric) (js : Js) (env : Env) (userId : ℕ) (portfolio : Portfolio)

/-- The body that `addAsset` gets for a row of a listed token. -/
def openingBody (raw : BulkRow) (db : Db) : Option (Token × CreateAssetBody) :=
  (rowToken js db raw).bind fun token =>
    (safeParseAsset env token.id raw).toOption.map fun body => (token, body)

/-- The row through the single endpoint: the state after it, when it is accepted. -/
def addRow (raw : BulkRow) (db : Db) : Option Db :=
  (openingBody js env raw db).bind fun opening =>
    (addAsset N userId env portfolio opening.2 db).toOption

/-- The rows through the single endpoint, in order, skipping what it rejects: the last state
and the numbers of the accepted rows. -/
def addEach : List BulkRow → ℕ → Db → Db × List ℕ
  | [], _, db => (db, [])
  | raw :: rows, row, db =>
      match addRow N js env userId portfolio raw db with
      | none => addEach rows (row + 1) db
      | some db' =>
          let rest := addEach rows (row + 1) db'
          (rest.1, row :: rest.2)

end Definitions

def AssetBatch.imported (b : AssetBatch) : List ℕ := b.prepared.map PreparedAssetRow.row

section Definitions

variable (N : Numeric) (js : Js) (env : Env) (userId : ℕ) (portfolio : Portfolio)

/-- The numbers of the rows a bulk import writes. -/
def importedOpenings (rows : List BulkRow) (db : Db) : List ℕ :=
  (prepareAssetRows N js env userId portfolio db rows 1 {}).imported

/-- The import answers with the rows and the state of the single adds. -/
def OpeningParity (rows : List BulkRow) (db : Db) : Prop :=
  ∃ result, bulkCreateAssets N js env userId portfolio ⟨.skipInvalid, rows⟩ db = .ok result ∧
    result.1 = (addEach N js env userId portfolio rows 1 db).1 ∧
    importedOpenings N js env userId portfolio rows db =
      (addEach N js env userId portfolio rows 1 db).2 ∧
    result.2.imported = (addEach N js env userId portfolio rows 1 db).2.length

/-! ## When a position fits -/

/-- The position written as a row, before anything is recalculated; `none` when the plan, the
missing price or a position of the same token turns it down. -/
def openRow (token : Token) (body : CreateAssetBody) (db : Db) : Option Db :=
  if planRefuses (env.plan userId) token then none
  else
    (resolveOpeningCost N env db token.id body.balance body.cost).bind fun opening =>
      (db.createAsset (openingAsset N portfolio.id token.id body.balance opening)).toOption

/-- A position that is not turned down stays within its columns once it is recalculated. -/
def OpeningFits (raw : BulkRow) (db : Db) : Prop :=
  ∀ token body, openingBody js env raw db = some (token, body) →
    ∀ db₁, openRow N env userId portfolio token body db = some db₁ →
      (settle N portfolio.id [token.id] db₁).fits N

/-- Every position fits, on the state the single adds have reached before it. -/
def OpeningsFit : List BulkRow → Db → Prop
  | [], _ => True
  | raw :: rows, db =>
      OpeningFits N js env userId portfolio raw db ∧
        OpeningsFit rows ((addRow N js env userId portfolio raw db).getD db)

end Definitions

/-! ## The body of a row -/

section Body

variable {js : Js} {env : Env} {raw : BulkRow} {db db' : Db} {token : Token}
variable {body : CreateAssetBody}

theorem safeParseAsset_ok {tokenId : ℕ} (h : safeParseAsset env tokenId raw = .ok body) :
    body.tokenId = tokenId ∧ decimal? (cellStr raw "quantity") = some body.balance.val := by
  unfold safeParseAsset at h
  split at h
  · cases h
  · split at h
    · next q hq =>
        split at h
        · cases hcost : rowCost env raw with
          | error e =>
              rw [hcost] at h
              cases h
          | ok cost =>
              rw [hcost] at h
              cases h
              exact ⟨rfl, hq⟩
        · cases h
    · cases h

/-- A quantity that passes its check is positive. -/
theorem numberErrors_pos {row : ℕ} {column value : String} {q : ℚ}
    (h : numberErrors row column value = []) (hq : decimal? value = some q) : 0 < q := by
  unfold numberErrors at h
  split at h
  · cases h
  · have hnone := List.map_eq_nil_iff.mp h
    unfold numberCellError at hnone
    rw [hq] at hnone
    dsimp only at hnone
    split at hnone
    · cases hnone
    · next hpos =>
        have hnot : ¬ ¬ 0 < q := fun hle => hpos ⟨rfl, hle⟩
        exact not_not.mp hnot

theorem openingBody_eq_some (h : openingBody js env raw db = some (token, body)) :
    rowToken js db raw = some token ∧ safeParseAsset env token.id raw = .ok body := by
  unfold openingBody at h
  obtain ⟨token', htoken, hbody⟩ := Option.bind_eq_some_iff.mp h
  obtain ⟨body', hparse, heq⟩ := Option.map_eq_some_iff.mp hbody
  cases heq
  refine ⟨htoken, ?_⟩
  cases hsafe : safeParseAsset env token.id raw with
  | error e =>
      rw [hsafe] at hparse
      cases hparse
  | ok body' =>
      rw [hsafe] at hparse
      cases hparse
      rfl

theorem openingBody_congr (htokens : db'.tokens = db.tokens) :
    openingBody js env raw db' = openingBody js env raw db := by
  unfold openingBody rowToken Db.findTokenBySymbol
  rw [htokens]

theorem rowToken_found (h : rowToken js db raw = some token) :
    db.findTokenById token.id = some token := by
  unfold rowToken at h
  split at h
  · cases h
  · exact findTokenById_of_symbol h

/-- What is known of the body of a well-formed row. -/
theorem openingBody_spec (hwell : WellFormedOpening js env raw)
    (h : openingBody js env raw db = some (token, body)) :
    body.tokenId = token.id ∧ 0 < body.balance.val ∧ db.findTokenById token.id = some token := by
  obtain ⟨htoken, hparse⟩ := openingBody_eq_some h
  obtain ⟨hid, hquantity⟩ := safeParseAsset_ok hparse
  exact ⟨hid, numberErrors_pos (hwell.quantity 0) hquantity, rowToken_found htoken⟩

end Body

/-! ## The single endpoint on the body of a row -/

section Single

variable {N : Numeric} {js : Js} {env : Env} {userId : ℕ} {portfolio : Portfolio}
variable {raw : BulkRow} {db db' db₁ : Db} {token : Token} {body : CreateAssetBody}

/-- The write of a position succeeds exactly when the token has none. -/
theorem openRow_eq_some_iff :
    openRow N env userId portfolio token body db = some db₁ ↔
      planRefuses (env.plan userId) token = false ∧
        ∃ opening, resolveOpeningCost N env db token.id body.balance body.cost = some opening ∧
          db.createAsset (openingAsset N portfolio.id token.id body.balance opening) = .ok db₁ := by
  unfold openRow
  cases hplan : planRefuses (env.plan userId) token with
  | true => simp
  | false =>
      rw [if_neg (by simp), Option.bind_eq_some_iff]
      refine ⟨fun ⟨opening, hopening, hwrite⟩ => ⟨rfl, opening, hopening, ?_⟩,
        fun ⟨_, opening, hopening, hwrite⟩ => ⟨opening, hopening, by rw [hwrite]; rfl⟩⟩
      cases hcreate : db.createAsset
          (openingAsset N portfolio.id token.id body.balance opening) with
      | error e =>
          rw [hcreate] at hwrite
          cases hwrite
      | ok db₂ =>
          rw [hcreate] at hwrite
          cases hwrite
          rfl

/-- An accepted position is written and settled. -/
theorem addAsset_toOption (hmanual : portfolio.type = .manual) (hid : body.tokenId = token.id)
    (hpos : 0 < body.balance.val) (htoken : db.findTokenById token.id = some token) :
    (addAsset N userId env portfolio body db).toOption =
      (openRow N env userId portfolio token body db).bind fun db₁ =>
        ((settle N portfolio.id [token.id] db₁).commit N).toOption := by
  have hassert : assertManualAssets portfolio = .ok () := if_pos (by rw [hmanual]; decide)
  have hbalance : ensure (0 < body.balance.val) invalidBalance = .ok () := if_pos hpos
  unfold addAsset openRow
  rw [hassert, ok_bind, hbalance, ok_bind, hid, htoken]
  unfold require
  dsimp only
  rw [ok_bind]
  cases hplan : planRefuses (env.plan userId) token with
  | true => rfl
  | false =>
      have hallowed : ensure (false = false) (openingPlanLimit token) = .ok () := if_pos rfl
      rw [hallowed, ok_bind, if_neg (by simp)]
      cases hopening : resolveOpeningCost N env db token.id body.balance body.cost with
      | none =>
          rw [Option.bind_none, Option.bind_none]
          unfold ensure
          split <;> rfl
      | some opening =>
          rw [Option.bind_some]
          by_cases hheld : db.findAsset portfolio.id token.id = none
          · rw [ensure, if_pos hheld, ok_bind]
            dsimp only
            rw [ok_bind]
            cases db.createAsset (openingAsset N portfolio.id token.id body.balance opening) with
            | error e => rfl
            | ok db₁ => rfl
          · rw [ensure, if_neg hheld]
            cases hcreate : db.createAsset
                (openingAsset N portfolio.id token.id body.balance opening) with
            | error e => rfl
            | ok db₁ =>
                obtain ⟨-, -, -, hfree⟩ := createAsset_ok hcreate
                exact absurd hfree hheld

/-- The state after an accepted row is its position settled, and it fits. -/
theorem addRow_eq_some_iff (hmanual : portfolio.type = .manual)
    (hwell : WellFormedOpening js env raw)
    (hbody : openingBody js env raw db = some (token, body)) :
    addRow N js env userId portfolio raw db = some db' ↔
      ∃ db₁, openRow N env userId portfolio token body db = some db₁ ∧
        db' = settle N portfolio.id [token.id] db₁ ∧ db'.fits N := by
  obtain ⟨hid, hpos, htoken⟩ := openingBody_spec hwell hbody
  have hsettled : ∀ db₁ : Db,
      ((settle N portfolio.id [token.id] db₁).commit N).toOption = some db' ↔
        db' = settle N portfolio.id [token.id] db₁ ∧ db'.fits N := by
    intro db₁
    unfold Db.commit
    split
    · next hfits =>
        constructor
        · intro h
          cases h
          exact ⟨rfl, hfits⟩
        · rintro ⟨rfl, -⟩
          rfl
    · next hfits =>
        constructor
        · intro h
          cases h
        · rintro ⟨rfl, h⟩
          exact absurd h hfits
  unfold addRow
  rw [hbody, Option.bind_some, addAsset_toOption hmanual hid hpos htoken,
    Option.bind_eq_some_iff]
  simp only [hsettled]

theorem addRow_of_no_body (hbody : openingBody js env raw db = none) :
    addRow N js env userId portfolio raw db = none := by
  unfold addRow
  rw [hbody]
  rfl

theorem addRow_of_refused (hmanual : portfolio.type = .manual)
    (hwell : WellFormedOpening js env raw)
    (hbody : openingBody js env raw db = some (token, body))
    (hopen : openRow N env userId portfolio token body db = none) :
    addRow N js env userId portfolio raw db = none := by
  rw [Option.eq_none_iff_forall_ne_some]
  intro db' hsome
  obtain ⟨db₁, hwrite, -⟩ := (addRow_eq_some_iff hmanual hwell hbody).mp hsome
  rw [hopen] at hwrite
  cases hwrite

theorem addRow_of_not_fits (hmanual : portfolio.type = .manual)
    (hwell : WellFormedOpening js env raw)
    (hbody : openingBody js env raw db = some (token, body))
    (hopen : openRow N env userId portfolio token body db = some db₁)
    (hfits : ¬ (settle N portfolio.id [token.id] db₁).fits N) :
    addRow N js env userId portfolio raw db = none := by
  rw [Option.eq_none_iff_forall_ne_some]
  intro db' hsome
  obtain ⟨db₂, hwrite, rfl, hfits'⟩ := (addRow_eq_some_iff hmanual hwell hbody).mp hsome
  rw [hopen] at hwrite
  cases hwrite
  exact hfits hfits'

/-- A row that is turned down fits. -/
theorem openingFits_of_no_body (hbody : openingBody js env raw db = none) :
    OpeningFits N js env userId portfolio raw db := by
  intro token body hsome
  rw [hbody] at hsome
  cases hsome

theorem openingFits_of_refused (hbody : openingBody js env raw db = some (token, body))
    (hopen : openRow N env userId portfolio token body db = none) :
    OpeningFits N js env userId portfolio raw db := by
  intro token' body' hsome db₁ hwrite
  rw [hbody] at hsome
  cases hsome
  rw [hopen] at hwrite
  cases hwrite

theorem openingFits_iff (hbody : openingBody js env raw db = some (token, body))
    (hopen : openRow N env userId portfolio token body db = some db₁) :
    OpeningFits N js env userId portfolio raw db ↔
      (settle N portfolio.id [token.id] db₁).fits N := by
  refine ⟨fun hall => hall token body hbody db₁ hopen, fun hfits => ?_⟩
  intro token' body' hsome db₂ hwrite
  rw [hbody] at hsome
  cases hsome
  rw [hopen] at hwrite
  cases hwrite
  exact hfits

end Single

/-! ## What an accepted row changes -/

section Written

variable {N : Numeric} {env : Env} {userId : ℕ} {p : ℕ} {portfolio : Portfolio}
variable {db₀ db db' db₁ : Db}

/-- Two states that differ in the portfolio total only. -/
abbrev SameButTotal (N : Numeric) (p : ℕ) (db db' : Db) : Prop := Mirrors N p [] db db'

theorem Mirrors.assets_eq (h : SameButTotal N p db db') : db'.assets = db.assets :=
  Table.ext (h.assets.trans Mirrors.refl.assets.symm)

theorem Mirrors.createAsset {a : Asset} (h : SameButTotal N p db db')
    (hcreate : db'.createAsset a = .ok db₁) :
    ∃ db₂, db.createAsset a = .ok db₂ ∧ SameButTotal N p db₂ db₁ := by
  have hassets := h.assets_eq
  unfold Db.createAsset at *
  rw [hassets] at hcreate
  cases hinsert : db.assets.insert? a with
  | none =>
      rw [hinsert] at hcreate
      cases hcreate
  | some assets =>
      rw [hinsert] at hcreate
      cases hcreate
      exact ⟨_, rfl, h.tokens, h.transactions, (@Mirrors.refl N p { db with assets }).assets,
        h.portfolios⟩

/-- Recalculating a token on both sides. -/
theorem Mirrors.recalcBoth (h : SameButTotal N p db db') {tokenId : ℕ}
    (hmanual : (db.findPortfolioById p).map Portfolio.type ≠ some .connected) :
    SameButTotal N p (recalcAssetBalance N p tokenId db) (recalcAssetBalance N p tokenId db') := by
  obtain ⟨htokens, hportfolios, htransactions⟩ := @recalcAssetBalance_frame N p db tokenId
  obtain ⟨htokens', hportfolios', htransactions'⟩ := @recalcAssetBalance_frame N p db' tokenId
  have hmanual' : (db'.findPortfolioById p).map Portfolio.type ≠ some .connected := by
    rw [h.type_eq]
    exact hmanual
  refine ⟨?_, ?_, ?_, fun total => ?_⟩
  · rw [htokens, htokens', h.tokens]
  · rw [htransactions, htransactions', h.transactions]
  · have hrows : (recalcAssetBalance N p tokenId db').assets.rows =
        (recalcAssetBalance N p tokenId db).assets.rows := by
      rw [recalcAssetBalance_rows hmanual', recalcAssetBalance_rows hmanual, h.assets_eq]
      exact List.map_congr_left fun a _ => recalced_congr h.tokens h.transactions
    exact hrows.trans Mirrors.refl.assets
  · have hbefore := h.portfolios total
    unfold Db.setNetDeposit at *
    simp only [hportfolios, hportfolios']
    exact hbefore

/-- The prepared positions written to the start state show the state of the single adds. -/
structure OpenedTo (N : Numeric) (p : ℕ) (db₀ : Db) (prepared : List PreparedAssetRow)
    (db : Db) : Prop where
  nothing : prepared = [] → db = db₀
  mirror : ∃ ins, prepared.foldlM (insertOpening N p) db₀ = .ok ins ∧ SameButTotal N p ins db
  settled : prepared ≠ [] → recalcPortfolioNetDeposit N p db = db ∧ db.fits N

namespace OpenedTo

variable {prepared : List PreparedAssetRow}

theorem start : OpenedTo N p db₀ [] db₀ where
  nothing _ := rfl
  mirror := ⟨db₀, rfl, .refl⟩
  settled h := absurd rfl h

/-- One more position that is written and settled. -/
theorem accept {r : PreparedAssetRow} (h : OpenedTo N p db₀ prepared db)
    (hmanual : (db.findPortfolioById p).map Portfolio.type ≠ some .connected)
    (hcreate : db.createAsset
      (openingAsset N p r.tokenId r.balance (r.openingCostBasis, r.openingAt)) = .ok db₁)
    (hfits : (settle N p [r.tokenId] db₁).fits N) :
    OpenedTo N p db₀ (prepared ++ [r]) (settle N p [r.tokenId] db₁) := by
  obtain ⟨ins, hfold, hsame⟩ := h.mirror
  obtain ⟨ins₁, hcreate', hsame₁⟩ := hsame.createAsset hcreate
  obtain ⟨assets, rfl, -, -⟩ := createAsset_ok hcreate
  have hmanual₁ : (ins₁.findPortfolioById p).map Portfolio.type ≠ some .connected := by
    rw [← hsame₁.type_eq]
    exact hmanual
  refine ⟨fun hnil => by simp at hnil, ⟨recalcAssetBalance N p r.tokenId ins₁, ?_, ?_⟩,
    fun _ => ⟨recalcPortfolioNetDeposit_idem, hfits⟩⟩
  · rw [List.foldlM_append, hfold, ok_bind, List.foldlM_cons]
    unfold insertOpening
    rw [hcreate']
    rfl
  · exact (hsame₁.recalcBoth hmanual₁).total

/-- The write transaction of the prepared positions ends in the state of the single adds. -/
theorem writeOpenings (h : OpenedTo N p db₀ prepared db) (hsome : prepared ≠ []) :
    Ledger.writeOpenings N p prepared db₀ = .ok db := by
  obtain ⟨ins, hfold, hsame⟩ := h.mirror
  obtain ⟨hsettled, hfits⟩ := h.settled hsome
  have htotal : recalcPortfolioNetDeposit N p ins = db := by
    rw [← hsettled]
    exact Mirrors.refl.settle_eq hsame
  unfold Ledger.writeOpenings
  rw [hfold, ok_bind, htotal]
  unfold Db.commit
  rw [if_pos hfits]

end OpenedTo

end Written

/-! ## Both runs in step -/

section Pass

variable {N : Numeric} {js : Js} {env : Env} {userId : ℕ} {portfolio : Portfolio}
variable {db₀ db db' db₁ : Db} {raw : BulkRow} {b : AssetBatch}
variable {token : Token} {body : CreateAssetBody}

/-- The forward pass and the single adds have decided alike so far. -/
structure OpeningsInStep (N : Numeric) (portfolio : Portfolio) (db₀ : Db) (b : AssetBatch)
    (db : Db) : Prop where
  held : ∀ t, (db.findAsset portfolio.id t).isSome ↔
    (db₀.findAsset portfolio.id t).isSome ∨ t ∈ b.seenTokens
  tokens : db.tokens = db₀.tokens
  type : (db.findPortfolioById portfolio.id).map Portfolio.type ≠ some .connected
  written : OpenedTo N portfolio.id db₀ b.prepared db

theorem resolveOpeningCost_congr {tokenId : ℕ} {balance : ℚ} {cost : Cost}
    (htokens : db.tokens = db₀.tokens) :
    resolveOpeningCost N env db tokenId balance cost =
      resolveOpeningCost N env db₀ tokenId balance cost := by
  cases cost with
  | avg avgCost => rfl
  | none => rfl
  | historical date =>
      unfold resolveOpeningCost priceAtDate Db.findTokenById
      rw [htokens]

theorem assetCellErrors_eq_nil (hwell : WellFormedOpening js env raw)
    (htoken : rowToken js db raw = some token) (row : ℕ) :
    assetCellErrors js env db row raw = [] := by
  unfold assetCellErrors symbolErrors
  rw [hwell.quantity, hwell.cost, htoken, if_neg hwell.symbol]
  rfl

/-- A row that names no listed token, or whose body the schema refuses, is reported. -/
theorem prepareAssetRow_of_no_body (hbody : openingBody js env raw db₀ = none)
    (hwell : WellFormedOpening js env raw) (row : ℕ) :
    ∃ errors, prepareAssetRow N js env userId portfolio db₀ row raw b = { b with errors } := by
  unfold prepareAssetRow
  cases htoken : rowToken js db₀ raw with
  | none =>
      split
      · next heq => cases heq
      · exact ⟨_, rfl⟩
  | some token =>
      unfold openingBody at hbody
      rw [htoken, Option.bind_some] at hbody
      rw [assetCellErrors_eq_nil hwell htoken row]
      dsimp only
      split
      · exact ⟨_, rfl⟩
      · split
        · exact ⟨_, rfl⟩
        · cases hsafe : safeParseAsset env token.id raw with
          | error e => exact ⟨_, rfl⟩
          | ok body =>
              rw [hsafe] at hbody
              cases hbody

namespace OpeningsInStep

theorem start (htype : (db₀.findPortfolioById portfolio.id).map Portfolio.type ≠
    some .connected) : OpeningsInStep N portfolio db₀ {} db₀ where
  held t := by simp
  tokens := rfl
  type := htype
  written := .start

theorem of_errors (h : OpeningsInStep N portfolio db₀ b db) (errors : List BulkRowError) :
    OpeningsInStep N portfolio db₀ { b with errors } db :=
  ⟨h.held, h.tokens, h.type, h.written⟩

/-- A row that is turned down is reported. -/
theorem prepareAssetRow_of_refused (h : OpeningsInStep N portfolio db₀ b db)
    (hwell : WellFormedOpening js env raw)
    (hbody : openingBody js env raw db₀ = some (token, body))
    (hopen : openRow N env userId portfolio token body db = none) (row : ℕ) :
    ∃ errors, prepareAssetRow N js env userId portfolio db₀ row raw b = { b with errors } := by
  obtain ⟨htoken, hsafe⟩ := openingBody_eq_some hbody
  unfold prepareAssetRow
  rw [assetCellErrors_eq_nil hwell htoken row, htoken]
  dsimp only
  split
  · exact ⟨_, rfl⟩
  · next hfree =>
      split
      · exact ⟨_, rfl⟩
      · next hplan =>
          rw [hsafe]
          dsimp only
          cases hcost : resolveOpeningCost N env db₀ token.id body.balance body.cost with
          | none => exact ⟨_, rfl⟩
          | some opening =>
              have hnone : db.findAsset portfolio.id token.id = none := by
                rw [← Option.not_isSome_iff_eq_none, h.held]
                exact hfree
              obtain ⟨assets, hassets, -⟩ := @Table.insert?_of_find?_eq_none _ _ _ _ db.assets
                (openingAsset N portfolio.id token.id body.balance opening) hnone
              have hsome : openRow N env userId portfolio token body db =
                  some { db with assets } := by
                refine openRow_eq_some_iff.mpr ⟨Bool.eq_false_of_not_eq_true hplan, opening, ?_, ?_⟩
                · rw [resolveOpeningCost_congr h.tokens, hcost]
                · unfold Db.createAsset
                  rw [hassets]
              rw [hopen] at hsome
              cases hsome

/-- A position that is admitted and fits is prepared, added and settled alike. -/
theorem prepareAssetRow_of_opens (h : OpeningsInStep N portfolio db₀ b db)
    (hwell : WellFormedOpening js env raw)
    (hbody : openingBody js env raw db₀ = some (token, body))
    (hopen : openRow N env userId portfolio token body db = some db₁) (row : ℕ) :
    ∃ opening,
      db.createAsset (openingAsset N portfolio.id token.id body.balance opening) = .ok db₁ ∧
        prepareAssetRow N js env userId portfolio db₀ row raw b =
          { b with
            seenTokens := b.seenTokens ++ [token.id]
            prepared := b.prepared ++
              [⟨row, token.id, body.balance, opening.1, opening.2⟩] } := by
  obtain ⟨htoken, hsafe⟩ := openingBody_eq_some hbody
  obtain ⟨hplan, opening, hcost, hcreate⟩ := openRow_eq_some_iff.mp hopen
  obtain ⟨-, -, -, hfree⟩ := createAsset_ok hcreate
  have hnew : ¬ ((db₀.findAsset portfolio.id token.id).isSome ∨ token.id ∈ b.seenTokens) := by
    rw [← h.held]
    have hnone : db.findAsset portfolio.id token.id = none := hfree
    rw [hnone]
    simp
  refine ⟨opening, hcreate, ?_⟩
  unfold prepareAssetRow
  rw [assetCellErrors_eq_nil hwell htoken row, htoken]
  dsimp only
  rw [if_neg hnew, if_neg (by rw [hplan]; simp), hsafe]
  dsimp only
  rw [← resolveOpeningCost_congr h.tokens, hcost]

theorem accept (h : OpeningsInStep N portfolio db₀ b db)
    (hwell : WellFormedOpening js env raw)
    (hbody : openingBody js env raw db₀ = some (token, body))
    (hopen : openRow N env userId portfolio token body db = some db₁)
    (hfits : (settle N portfolio.id [token.id] db₁).fits N) (row : ℕ) :
    (prepareAssetRow N js env userId portfolio db₀ row raw b).imported = b.imported ++ [row] ∧
      OpeningsInStep N portfolio db₀ (prepareAssetRow N js env userId portfolio db₀ row raw b)
        (settle N portfolio.id [token.id] db₁) := by
  obtain ⟨opening, hcreate, hrow⟩ := h.prepareAssetRow_of_opens hwell hbody hopen row
  obtain ⟨assets, rfl, hassets, -⟩ := createAsset_ok hcreate
  have hmirror : Mirrors N portfolio.id [token.id] { db with assets }
      (settle N portfolio.id [token.id] { db with assets }) := mirrors_settle h.type
  rw [hrow]
  refine ⟨List.map_append, fun t => ?_, hmirror.tokens.trans h.tokens, ?_, ?_⟩
  · rw [hmirror.findAsset_isSome]
    show (assets.find? (portfolio.id, t)).isSome ↔ _ ∨ t ∈ b.seenTokens ++ [token.id]
    unfold Table.find?
    rw [hassets, List.find?_append, Option.isSome_or, Bool.or_eq_true, List.mem_append,
      ← or_assoc, ← h.held]
    refine or_congr Iff.rfl ?_
    by_cases ht : t = token.id
    · simp [ht, openingAsset, Asset.key]
    · have hne : ¬ token.id = t := fun heq => ht heq.symm
      simp [ht, hne, openingAsset, Asset.key]
  · rw [hmirror.type_eq]
    exact h.type
  · exact h.written.accept h.type hcreate hfits

end OpeningsInStep

theorem le_of_mem_addEach {rows : List BulkRow} {row i : ℕ}
    (h : i ∈ (addEach N js env userId portfolio rows row db).2) : row ≤ i := by
  induction rows generalizing row db with
  | nil => cases h
  | cons raw rows ih =>
      unfold addEach at h
      split at h
      · exact (Nat.le_succ row).trans (ih h)
      · rcases List.mem_cons.mp h with rfl | h
        · exact le_rfl
        · exact (Nat.le_succ row).trans (ih h)

/-- A row adds itself to the prepared positions or only errors to the batch. -/
theorem imported_prepareAssetRow {row : ℕ} :
    b.imported <+: (prepareAssetRow N js env userId portfolio db₀ row raw b).imported := by
  unfold prepareAssetRow
  split
  · split
    · exact List.prefix_rfl
    · split
      · exact List.prefix_rfl
      · split
        · exact List.prefix_rfl
        · split
          · exact List.prefix_rfl
          · unfold AssetBatch.imported
            rw [List.map_append]
            exact List.prefix_append _ _
  · exact List.prefix_rfl

theorem imported_prepareAssetRows {rows : List BulkRow} {row : ℕ} :
    b.imported <+: (prepareAssetRows N js env userId portfolio db₀ rows row b).imported := by
  induction rows generalizing row b with
  | nil => exact List.prefix_rfl
  | cons raw rows ih => exact imported_prepareAssetRow.trans ih

/-- The whole lists are imported alike exactly when every position fits, and then the prepared
positions lead to the state of the single adds. -/
theorem openingsFit_iff (hmanual : portfolio.type = .manual) {rows : List BulkRow}
    (hwell : ∀ raw ∈ rows, WellFormedOpening js env raw) {row : ℕ}
    (h : OpeningsInStep N portfolio db₀ b db) :
    ((prepareAssetRows N js env userId portfolio db₀ rows row b).imported =
        b.imported ++ (addEach N js env userId portfolio rows row db).2 ↔
      OpeningsFit N js env userId portfolio rows db) ∧
    (OpeningsFit N js env userId portfolio rows db →
      OpenedTo N portfolio.id db₀ (prepareAssetRows N js env userId portfolio db₀ rows row b).prepared
        (addEach N js env userId portfolio rows row db).1) := by
  induction rows generalizing row b db with
  | nil => exact ⟨⟨fun _ => trivial, fun _ => (List.append_nil _).symm⟩, fun _ => h.written⟩
  | cons raw rows ih =>
      have hraw := hwell raw List.mem_cons_self
      have htail := fun raw' hmem => hwell raw' (List.mem_cons_of_mem _ hmem)
      have hsame : openingBody js env raw db = openingBody js env raw db₀ :=
        openingBody_congr h.tokens
      unfold prepareAssetRows addEach OpeningsFit
      -- A row that both turn down leaves both states alone.
      have hskip : ∀ errors, OpeningFits N js env userId portfolio raw db →
          ((prepareAssetRows N js env userId portfolio db₀ rows (row + 1) { b with errors }).imported =
              b.imported ++ (addEach N js env userId portfolio rows (row + 1) db).2 ↔
            OpeningFits N js env userId portfolio raw db ∧
              OpeningsFit N js env userId portfolio rows db) ∧
          (OpeningFits N js env userId portfolio raw db ∧
              OpeningsFit N js env userId portfolio rows db →
            OpenedTo N portfolio.id db₀ (prepareAssetRows N js env userId portfolio db₀ rows
                (row + 1) { b with errors }).prepared
              (addEach N js env userId portfolio rows (row + 1) db).1) := by
        intro errors hfits
        obtain ⟨hiff, hwritten⟩ := @ih _ _ htail (row + 1) (h.of_errors errors)
        exact ⟨hiff.trans (and_iff_right hfits).symm, fun hall => hwritten hall.2⟩
      cases hbody : openingBody js env raw db₀ with
      | none =>
          obtain ⟨errors, hrow⟩ := @prepareAssetRow_of_no_body N _ _ userId portfolio _ _ b hbody
            hraw row
          have hbody' := hsame.trans hbody
          rw [hrow, addRow_of_no_body hbody']
          exact hskip errors (openingFits_of_no_body hbody')
      | some opening =>
          obtain ⟨token, body⟩ := opening
          have hbody' := hsame.trans hbody
          cases hopen : openRow N env userId portfolio token body db with
          | none =>
              obtain ⟨errors, hrow⟩ := h.prepareAssetRow_of_refused hraw hbody hopen row
              rw [hrow, addRow_of_refused hmanual hraw hbody' hopen]
              exact hskip errors (openingFits_of_refused hbody' hopen)
          | some db₁ =>
              rw [openingFits_iff hbody' hopen]
              by_cases hfits : (settle N portfolio.id [token.id] db₁).fits N
              · have hadd : addRow N js env userId portfolio raw db =
                    some (settle N portfolio.id [token.id] db₁) :=
                  (addRow_eq_some_iff hmanual hraw hbody').mpr ⟨db₁, hopen, rfl, hfits⟩
                obtain ⟨hrow, hstep⟩ := h.accept hraw hbody hopen hfits row
                obtain ⟨hiff', hwritten⟩ := @ih _ _ htail (row + 1) hstep
                rw [hadd]
                dsimp only
                rw [Option.getD_some]
                refine ⟨?_, fun hall => hwritten hall.2⟩
                rw [← List.singleton_append (l := (addEach ..).2), ← List.append_assoc, ← hrow,
                  hiff', and_iff_right hfits]
              · -- Only the bulk import takes the row, and its write fails as a whole.
                obtain ⟨opening, -, hrow⟩ := h.prepareAssetRow_of_opens hraw hbody hopen row
                have hmore := @imported_prepareAssetRows N js env userId portfolio db₀
                  (prepareAssetRow N js env userId portfolio db₀ row raw b) rows (row + 1)
                rw [addRow_of_not_fits hmanual hraw hbody' hopen hfits]
                dsimp only
                refine ⟨⟨fun heq => ?_, fun hall => absurd hall.1 hfits⟩,
                  fun hall => absurd hall.1 hfits⟩
                rw [heq, hrow] at hmore
                unfold AssetBatch.imported at hmore
                rw [List.map_append] at hmore
                have hcons := (List.prefix_append_right_inj _).mp hmore
                have hmem := hcons.subset List.mem_cons_self
                exact absurd (le_of_mem_addEach hmem) (Nat.not_succ_le_self row)

/-- A skip-invalid import of well-formed rows does what adding the positions one at a time does
exactly when there are at most 500 of them and each of them fits its columns. -/
theorem openingParity_iff {db : Db} {rows : List BulkRow} (hmanual : portfolio.type = .manual)
    (hfind : db.findPortfolioById portfolio.id = some portfolio)
    (hwell : ∀ raw ∈ rows, WellFormedOpening js env raw) :
    OpeningParity N js env userId portfolio rows db ↔
      rows.length ≤ 500 ∧ OpeningsFit N js env userId portfolio rows db := by
  have htype : (db.findPortfolioById portfolio.id).map Portfolio.type ≠ some .connected := by
    rw [hfind, Option.map_some, hmanual]
    decide
  obtain ⟨hiff, hwritten⟩ := @openingsFit_iff N _ _ userId _ _ _ _ hmanual _ hwell 1
    (OpeningsInStep.start htype)
  have hnothing : AssetBatch.imported {} = [] := rfl
  rw [hnothing, List.nil_append] at hiff
  unfold OpeningParity bulkCreateAssets
  constructor
  · rintro ⟨result, hbulk, -, himported, -⟩
    obtain ⟨-, -, hbulk⟩ := bind_eq_ok hbulk
    obtain ⟨_, hcap, -⟩ := bind_eq_ok hbulk
    exact ⟨ensure_ok hcap, hiff.mp himported⟩
  · rintro ⟨hcap, hfits⟩
    have himported := hiff.mpr hfits
    have hstate := hwritten hfits
    have hlength := congrArg List.length himported
    unfold AssetBatch.imported at hlength
    rw [List.length_map] at hlength
    have hmanual' : ensure (portfolio.type = .manual) notManual = .ok () := if_pos hmanual
    have hcap' : ensure (rows.length ≤ bulkRowCap) tooManyRows = .ok () := if_pos hcap
    rw [hmanual', ok_bind, hcap', ok_bind]
    dsimp only
    have hmode : ∀ errors, ensure (¬ (BulkMode.skipInvalid = .allOrNothing ∧
        (prepareAssetRows N js env userId portfolio db rows 1 {}).errors ≠ []))
        (bulkValidationFailed errors) = .ok () := fun errors => if_pos (by simp)
    rw [hmode, ok_bind]
    by_cases hnil : (prepareAssetRows N js env userId portfolio db rows 1 {}).prepared = []
    · rw [hnil] at hlength
      rw [if_pos hnil]
      exact ⟨_, rfl, (hstate.nothing hnil).symm, himported, hlength⟩
    · rw [if_neg hnil, hstate.writeOpenings hnil, ok_bind]
      exact ⟨_, rfl, rfl, himported, hlength⟩

end Pass

/-! ### One position that fits and one that does not -/

section Decidable

variable (N : Numeric) (js : Js) (env : Env) (userId : ℕ) (portfolio : Portfolio)

theorem openingFits_iff_all {raw : BulkRow} {db : Db} :
    ((openingBody js env raw db).all fun opening =>
      (openRow N env userId portfolio opening.1 opening.2 db).all fun db₁ =>
        (settle N portfolio.id [opening.1.id] db₁).fits N) = true ↔
      OpeningFits N js env userId portfolio raw db := by
  simp only [Option.all_eq_true, OpeningFits, Prod.forall]

instance (raw : BulkRow) (db : Db) : Decidable (OpeningFits N js env userId portfolio raw db) :=
  decidable_of_iff _ (openingFits_iff_all N js env userId portfolio)

instance decidableOpeningsFit : ∀ (rows : List BulkRow) (db : Db),
    Decidable (OpeningsFit N js env userId portfolio rows db)
  | [], _ => isTrue trivial
  | _ :: rows, _ => @instDecidableAnd _ _ _ (decidableOpeningsFit rows _)

end Decidable

/-- A position of some ether at 100. -/
def ethOpening (quantity : String) : BulkRow := fun key =>
  [("symbol", "eth"), ("quantity", quantity), ("costPerUnit", "100")].lookup key

theorem wellFormed_ethOpening {quantity : String} (h : quantity ∈ ["1", "999999999999"]) :
    WellFormedOpening sampleJs sampleEnv (ethOpening quantity) := by
  have hcost : ∀ row, costErrors sampleEnv row (ethOpening quantity) = [] := by
    intro row
    have hnil : numberCellError (cellStr (ethOpening quantity) "costPerUnit") true = none := by
      show numberCellError (trim "100") true = none
      decide +kernel
    have hmode : costMode (ethOpening quantity) = .avg := by
      show (if trim "100" ≠ "" then CostMode.avg else _) = _
      rw [if_pos (by decide +kernel)]
    unfold costErrors
    rw [hmode, hnil]
    rfl
  have hquantity : cellStr (ethOpening quantity) "quantity" ≠ "" ∧
      numberCellError (cellStr (ethOpening quantity) "quantity") true = none := by
    rcases List.mem_pair.mp h with rfl | rfl
    · decide +kernel
    · decide +kernel
  refine ⟨?_, fun row => ?_, hcost⟩
  · show sampleJs.toUpperCase (trim (trim "eth")) ≠ ""
    decide +kernel
  · unfold numberErrors
    rw [if_neg hquantity.1, hquantity.2]
    rfl

/-- One position is imported as it is added. -/
theorem openingParity_one :
    OpeningParity decimal20_8 sampleJs sampleEnv 1 samplePortfolio [ethOpening "1"] sampleDb := by
  refine (openingParity_iff rfl (by decide +kernel) fun raw hraw => ?_).mpr
    ⟨by decide, by decide +kernel⟩
  rw [List.mem_singleton.mp hraw]
  exact wellFormed_ethOpening List.mem_cons_self

/-- A position whose cost leaves its column takes the valid one with it. -/
theorem not_openingParity :
    samplePortfolio.type = .manual ∧
      sampleDb.findPortfolioById samplePortfolio.id = some samplePortfolio ∧
      (∀ raw ∈ [ethOpening "999999999999", ethOpening "1"],
        WellFormedOpening sampleJs sampleEnv raw) ∧
      ¬ OpeningParity decimal20_8 sampleJs sampleEnv 1 samplePortfolio
        [ethOpening "999999999999", ethOpening "1"] sampleDb := by
  refine ⟨rfl, by decide +kernel, fun raw hraw => ?_, ?_⟩
  · rcases List.mem_pair.mp hraw with rfl | rfl
    · exact wellFormed_ethOpening (by simp)
    · exact wellFormed_ethOpening (by simp)
  · rintro ⟨result, -, -, himported, -⟩
    have hrows : importedOpenings decimal20_8 sampleJs sampleEnv 1 samplePortfolio
        [ethOpening "999999999999", ethOpening "1"] sampleDb = [1] ∧
        (addEach decimal20_8 sampleJs sampleEnv 1 samplePortfolio
          [ethOpening "999999999999", ethOpening "1"] 1 sampleDb).2 = [2] := by decide +kernel
    rw [hrows.1, hrows.2] at himported
    cases himported

end Neonfi.Ledger
