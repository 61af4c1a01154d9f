import Neonfi.Ledger.Transfers
import Neonfi.Ledger.Rollup
import Neonfi.Ledger.Settle

/-!
# Create, then delete

A delete does not undo the writes of a create: both recalculate the assets and the totals
they touch from what the ledger holds.  The two together bring back what was stored exactly
when what was stored is what a recalculation makes of the ledger.
-/

namespace Neonfi.Ledger

open Lib

/-! ## What is compared -/

/-- Every asset shows what it showed, and every portfolio its net deposit.  An asset that was
not there may be there with nothing in it. -/
structure Restored (db db' : Db) : Prop where
  kept : ∀ p tokenId, (db.findAsset p tokenId).isSome → (db'.findAsset p tokenId).isSome
  holdings : ∀ p tokenId, holding db' p tokenId = holding db p tokenId
  netDeposit : ∀ p, (db'.findPortfolioById p).map Portfolio.netDeposit =
    (db.findPortfolioById p).map Portfolio.netDeposit

/-- What the holding and its portfolio store is what a recalculation makes of the ledger.
Without an asset row, the rows left over of the token come to nothing. -/
structure Reproducible (N : Numeric) (db : Db) (p : ℕ) (tokenId : ℕ) (symbol : String) :
    Prop where
  asset : holding db p tokenId =
    (replay (heldAsset db p tokenId) (ledgerEvents db p symbol)).stored N
  total : (db.findPortfolioById p).map Portfolio.netDeposit =
    some (N.fix (netDepositSum db p))

theorem holding_eq_derived (db : Db) (p tokenId : ℕ) :
    holding db p tokenId = (heldAsset db p tokenId).derived := by
  unfold holding heldAsset
  cases db.findAsset p tokenId <;> rfl

theorem key_heldAsset (db : Db) (p tokenId : ℕ) :
    (heldAsset db p tokenId).key = (p, tokenId) := by
  unfold heldAsset
  cases hfind : db.findAsset p tokenId with
  | none => rfl
  | some a => exact (Table.find?_eq_some_iff.mp hfind).2

theorem setDerived_derived (a : Asset) : a.setDerived a.derived = a := rfl

/-! ## Recalculating one token in some portfolios -/

section Resettle

variable (N : Numeric) (ps : List ℕ) (tokenId : ℕ) (symbol : String)

/-- An asset after the recalculation. -/
def resettled (db : Db) (a : Asset) : Asset :=
  if a.tokenId = tokenId ∧ a.portfolioId ∈ ps then
    a.setDerived ((replay a (ledgerEvents db a.portfolioId symbol)).stored N)
  else a

/-- A portfolio after the recalculation of its total. -/
def retotalled (db : Db) (portfolio : Portfolio) : Portfolio :=
  if portfolio.id ∈ ps then
    { portfolio with netDeposit := N.fix (netDepositSum db portfolio.id) }
  else portfolio

/-- The rows that a first buy of the token creates in the portfolios. -/
def opened (db : Db) : List Asset :=
  (ps.filter fun p => (db.findAsset p tokenId).isNone).map fun p => emptyAsset p tokenId

end Resettle

section

variable {N : Numeric} {ps : List ℕ} {tokenId : ℕ} {symbol : String} {db db' : Db}

@[simp] theorem key_resettled {a : Asset} : (resettled N ps tokenId symbol db a).key = a.key := by
  unfold resettled
  split <;> rfl

@[simp] theorem id_retotalled {portfolio : Portfolio} :
    (retotalled N ps db portfolio).id = portfolio.id := by
  unfold retotalled
  split <;> rfl

theorem resettled_of_mem {a : Asset} {p : ℕ} (hp : p ∈ ps) (hkey : a.key = (p, tokenId)) :
    resettled N ps tokenId symbol db a =
      a.setDerived ((replay a (ledgerEvents db p symbol)).stored N) := by
  have hportfolio : a.portfolioId = p := congrArg Prod.fst hkey
  have htoken : a.tokenId = tokenId := congrArg Prod.snd hkey
  unfold resettled
  rw [hportfolio, if_pos ⟨htoken, hp⟩]

theorem resettled_of_notMem {a : Asset} (h : ∀ p ∈ ps, a.key ≠ (p, tokenId)) :
    resettled N ps tokenId symbol db a = a := by
  unfold resettled
  rw [if_neg]
  rintro ⟨htoken, hp⟩
  exact h a.portfolioId hp (Prod.ext rfl htoken)

theorem mem_opened {a : Asset} :
    a ∈ opened ps tokenId db ↔
      ∃ p ∈ ps, db.findAsset p tokenId = none ∧ a = emptyAsset p tokenId := by
  unfold opened
  constructor
  · intro ha
    obtain ⟨p, hp, rfl⟩ := List.mem_map.mp ha
    obtain ⟨hmem, hnone⟩ := List.mem_filter.mp hp
    exact ⟨p, hmem, Option.isNone_iff_eq_none.mp hnone, rfl⟩
  · rintro ⟨p, hmem, hnone, rfl⟩
    refine List.mem_map.mpr ⟨p, List.mem_filter.mpr ⟨hmem, ?_⟩, rfl⟩
    rw [hnone]
    rfl

theorem heldAsset_mem_opened {p : ℕ} (hp : p ∈ ps) :
    heldAsset db p tokenId ∈ db.assets.rows ++ opened ps tokenId db := by
  cases hfind : db.findAsset p tokenId with
  | none =>
      rw [heldAsset, hfind, Option.getD_none]
      exact List.mem_append_right _ (mem_opened.mpr ⟨p, hp, hfind, rfl⟩)
  | some a =>
      rw [heldAsset, hfind, Option.getD_some]
      exact List.mem_append_left _ (Table.find?_eq_some_iff.mp hfind).1

/-! ## What writes before the recalculation may have done -/

/-- The state differs only in columns that the recalculation writes. -/
structure Drifts (ps : List ℕ) (tokenId : ℕ) (db db' : Db) : Prop where
  tokens : db'.tokens = db.tokens
  assets : ∃ f : Asset → Asset, db'.assets.rows = db.assets.rows.map f ∧
    ∀ a, f a = a ∨ a.tokenId = tokenId ∧ a.portfolioId ∈ ps ∧ ∃ d, f a = a.setDerived d
  portfolios : ∃ g : Portfolio → Portfolio, db'.portfolios.rows = db.portfolios.rows.map g ∧
    ∀ q, g q = q ∨ q.id ∈ ps ∧ ∃ value, g q = { q with netDeposit := value }

namespace Drifts

theorem of_tables (htokens : db'.tokens = db.tokens) (hassets : db'.assets = db.assets)
    (hportfolios : db'.portfolios = db.portfolios) : Drifts ps tokenId db db' where
  tokens := htokens
  assets := ⟨id, by rw [hassets, List.map_id], fun _ => .inl rfl⟩
  portfolios := ⟨id, by rw [hportfolios, List.map_id], fun _ => .inl rfl⟩

theorem trans {db₁ db₂ : Db} (h₁ : Drifts ps tokenId db db₁) (h₂ : Drifts ps tokenId db₁ db₂) :
    Drifts ps tokenId db db₂ where
  tokens := h₂.tokens.trans h₁.tokens
  assets := by
    obtain ⟨f₁, hrows₁, hf₁⟩ := h₁.assets
    obtain ⟨f₂, hrows₂, hf₂⟩ := h₂.assets
    refine ⟨f₂ ∘ f₁, by rw [hrows₂, hrows₁, List.map_map], fun a => ?_⟩
    rw [Function.comp_apply]
    rcases hf₁ a with h₁ | ⟨ht, hp, d, h₁⟩
    · rw [h₁]
      exact hf₂ a
    · rw [h₁]
      rcases hf₂ (a.setDerived d) with h₂ | ⟨-, -, d', h₂⟩
      · exact .inr ⟨ht, hp, d, h₂⟩
      · exact .inr ⟨ht, hp, d', h₂⟩
  portfolios := by
    obtain ⟨g₁, hrows₁, hg₁⟩ := h₁.portfolios
    obtain ⟨g₂, hrows₂, hg₂⟩ := h₂.portfolios
    refine ⟨g₂ ∘ g₁, by rw [hrows₂, hrows₁, List.map_map], fun q => ?_⟩
    rw [Function.comp_apply]
    rcases hg₁ q with h₁ | ⟨hq, v, h₁⟩
    · rw [h₁]
      exact hg₂ q
    · rw [h₁]
      rcases hg₂ { q with netDeposit := v } with h₂ | ⟨-, v', h₂⟩
      · exact .inr ⟨hq, v, h₂⟩
      · exact .inr ⟨hq, v', h₂⟩

theorem recalcAsset {p : ℕ} (hp : p ∈ ps) :
    Drifts ps tokenId db (recalcAssetBalance N p tokenId db) := by
  unfold recalcAssetBalance
  split
  · exact of_tables rfl rfl rfl
  · split
    · exact of_tables rfl rfl rfl
    · refine ⟨rfl, ⟨_, rfl, fun a => ?_⟩, id, by simp [Db.updateAssetRow], fun _ => .inl rfl⟩
      split
      · next hkey =>
          have hportfolio : a.portfolioId = p := congrArg Prod.fst hkey
          exact .inr ⟨congrArg Prod.snd hkey, hportfolio ▸ hp, _, rfl⟩
      · exact .inl rfl

theorem recalcTotal {p : ℕ} (hp : p ∈ ps) :
    Drifts ps tokenId db (recalcPortfolioNetDeposit N p db) := by
  refine ⟨rfl, ⟨id, by rw [List.map_id]; rfl, fun _ => .inl rfl⟩, ⟨_, rfl, fun q => ?_⟩⟩
  split
  · next hid => exact .inr ⟨hid ▸ hp, _, rfl⟩
  · exact .inl rfl

/-- The type of a portfolio is not among these columns. -/
theorem type_eq (h : Drifts ps tokenId db db') (p : ℕ) :
    (db'.findPortfolioById p).map Portfolio.type =
      (db.findPortfolioById p).map Portfolio.type := by
  obtain ⟨g, hrows, hg⟩ := h.portfolios
  have hsame : ∀ q, (g q).id = q.id ∧ (g q).type = q.type := by
    intro q
    rcases hg q with hq | ⟨-, value, hq⟩
    · rw [hq]
      exact ⟨rfl, rfl⟩
    · rw [hq]
      exact ⟨rfl, rfl⟩
  have hcomp : (fun q => decide (Portfolio.id q = p)) ∘ g = fun q => decide (q.id = p) := by
    funext q
    rw [Function.comp_apply, (hsame q).1]
  unfold Db.findPortfolioById SerialTable.find?
  rw [hrows, List.find?_map, hcomp, Option.map_map]
  congr 1
  funext q
  exact (hsame q).2

/-- The recalculation does not read what drifted. -/
theorem assets_resettled (h : Drifts ps tokenId db db') {d : Db} :
    db'.assets.rows.map (resettled N ps tokenId symbol d) =
      db.assets.rows.map (resettled N ps tokenId symbol d) := by
  obtain ⟨f, hrows, hf⟩ := h.assets
  rw [hrows, List.map_map]
  apply List.map_congr_left
  intro a _
  rw [Function.comp_apply]
  rcases hf a with hfa | ⟨ht, hp, derived, hfa⟩
  · rw [hfa]
  · have hkey : a.key = (a.portfolioId, tokenId) := Prod.ext rfl ht
    rw [hfa, resettled_of_mem hp hkey, resettled_of_mem (a := a.setDerived derived) hp hkey]
    rfl

theorem portfolios_retotalled (h : Drifts ps tokenId db db') {d : Db} :
    db'.portfolios.rows.map (retotalled N ps d) = db.portfolios.rows.map (retotalled N ps d) := by
  obtain ⟨g, hrows, hg⟩ := h.portfolios
  rw [hrows, List.map_map]
  apply List.map_congr_left
  intro q _
  rw [Function.comp_apply]
  rcases hg q with hgq | ⟨hq, value, hgq⟩
  · rw [hgq]
  · rw [hgq]
    unfold retotalled
    rw [if_pos hq, if_pos hq]

end Drifts

/-! ## The recalculation of a delete -/

/-- Recalculating the token in the portfolios, one after the other. -/
theorem recalcAssets_rows {token : Token} (hps : ∀ p ∈ ps,
      (db.findPortfolioById p).map Portfolio.type = some .manual)
    (htoken : db.findTokenById tokenId = some token) :
    (ps.foldl (fun d p => recalcAssetBalance N p tokenId d) db).assets.rows =
      db.assets.rows.map (resettled N ps tokenId token.symbol db) := by
  induction ps generalizing db with
  | nil =>
      have hkeep : ∀ a ∈ db.assets.rows, resettled N [] tokenId token.symbol db a = a := fun a _ =>
        resettled_of_notMem fun _ hp => absurd hp List.not_mem_nil
      rw [List.foldl_nil, List.map_congr_left hkeep, List.map_id']
  | cons p ps ih =>
      have hdrift := @Drifts.recalcAsset N [p] tokenId db p List.mem_cons_self
      have hmanual : (db.findPortfolioById p).map Portfolio.type ≠ some .connected := by
        rw [hps p List.mem_cons_self]
        simp
      have hevents : ∀ q symbol, ledgerEvents (recalcAssetBalance N p tokenId db) q symbol =
          ledgerEvents db q symbol := by
        intro q symbol
        apply ledgerEvents_congr
        rw [transactions_recalcAssetBalance]
      have hrows : (recalcAssetBalance N p tokenId db).assets.rows =
          db.assets.rows.map fun a => if a.key = (p, tokenId) then
            a.setDerived ((replay a (ledgerEvents db p token.symbol)).stored N) else a := by
        unfold recalcAssetBalance
        rw [if_neg hmanual, htoken]
        rfl
      rw [List.foldl_cons, ih, hrows, List.map_map]
      · apply List.map_congr_left
        intro a _
        rw [Function.comp_apply]
        unfold resettled
        rw [hevents]
        by_cases ht : a.tokenId = tokenId
        · by_cases hp : a.portfolioId = p
          · subst hp
            have hkey : a.key = (a.portfolioId, tokenId) := Prod.ext rfl ht
            have hmem : a.tokenId = tokenId ∧ a.portfolioId ∈ a.portfolioId :: ps :=
              ⟨ht, List.mem_cons_self⟩
            rw [if_pos hkey, if_pos hmem]
            split
            · rfl
            · rfl
          · have hkey : ¬ a.key = (p, tokenId) := fun h => hp (congrArg Prod.fst h)
            rw [if_neg hkey]
            simp [ht, hp]
        · have hkey : ¬ a.key = (p, tokenId) := fun h => ht (congrArg Prod.snd h)
          rw [if_neg hkey]
          simp [ht]
      · intro q hq
        rw [hdrift.type_eq]
        exact hps q (List.mem_cons_of_mem _ hq)
      · unfold Db.findTokenById
        rw [hdrift.tokens]
        exact htoken

/-- Totalling the portfolios, one after the other. -/
theorem recalcTotals_rows :
    (ps.foldl (fun d p => recalcPortfolioNetDeposit N p d) db).portfolios.rows =
        db.portfolios.rows.map (retotalled N ps db) ∧
      (ps.foldl (fun d p => recalcPortfolioNetDeposit N p d) db).assets = db.assets ∧
      (ps.foldl (fun d p => recalcPortfolioNetDeposit N p d) db).transactions =
        db.transactions := by
  induction ps generalizing db with
  | nil =>
      have hkeep : ∀ q ∈ db.portfolios.rows, retotalled N [] db q = q := fun q _ =>
        if_neg List.not_mem_nil
      refine ⟨?_, rfl, rfl⟩
      rw [List.foldl_nil, List.map_congr_left hkeep, List.map_id']
  | cons p ps ih =>
      obtain ⟨hrows, hassets, htransactions⟩ := @ih (recalcPortfolioNetDeposit N p db)
      rw [List.foldl_cons]
      refine ⟨?_, hassets, htransactions⟩
      rw [hrows]
      show (db.portfolios.rows.map _).map _ = _
      rw [List.map_map]
      apply List.map_congr_left
      intro q _
      rw [Function.comp_apply]
      have hsum : netDepositSum (recalcPortfolioNetDeposit N p db) = netDepositSum db := rfl
      unfold retotalled
      rw [hsum]
      by_cases hq : q.id = p
      · have hmem : q.id ∈ p :: ps := by
          rw [hq]
          exact List.mem_cons_self
        rw [if_pos hq, if_pos hmem, hq]
        split
        · rfl
        · rfl
      · rw [if_neg hq]
        simp [hq]

/-- A state in which all rows are back and one token is recalculated in some portfolios. -/
structure Undone (N : Numeric) (ps : List ℕ) (tokenId : ℕ) (symbol : String) (db db' : Db) :
    Prop where
  transactions : db'.transactions.rows = db.transactions.rows
  assets : db'.assets.rows =
    (db.assets.rows ++ opened ps tokenId db).map (resettled N ps tokenId symbol db)
  portfolios : db'.portfolios.rows = db.portfolios.rows.map (retotalled N ps db')

/-- However the columns drifted before, once the rows are back the delete recalculates them. -/
theorem undone_of_drifts {token : Token} {opening back : Db}
    (hopened : opening.assets.rows = db.assets.rows ++ opened ps tokenId db)
    (hportfolios : opening.portfolios = db.portfolios) (htokens : opening.tokens = db.tokens)
    (hdrift : Drifts ps tokenId opening back)
    (hrows : back.transactions.rows = db.transactions.rows)
    (hps : ∀ p ∈ ps, (db.findPortfolioById p).map Portfolio.type = some .manual)
    (htoken : db.findTokenById tokenId = some token) :
    Undone N ps tokenId token.symbol db
      (recalcTargets N (ps.map fun p => (p, tokenId)) ps back) := by
  have htype : ∀ p ∈ ps, (back.findPortfolioById p).map Portfolio.type = some .manual := by
    intro p hp
    rw [hdrift.type_eq]
    unfold Db.findPortfolioById
    rw [hportfolios]
    exact hps p hp
  have hfound : back.findTokenById tokenId = some token := by
    unfold Db.findTokenById
    rw [hdrift.tokens, htokens]
    exact htoken
  have hevents : ∀ q symbol, ledgerEvents back q symbol = ledgerEvents db q symbol := by
    intro q symbol
    apply ledgerEvents_congr
    rw [hrows]
  have hresettled : resettled N ps tokenId token.symbol back =
      resettled N ps tokenId token.symbol db := by
    funext a
    unfold resettled
    rw [hevents]
  have hassets := @recalcAssets_rows N _ _ _ _ htype hfound
  rw [hresettled, hdrift.assets_resettled, hopened] at hassets
  have hportfolios' : ∀ (ids : List ℕ) (d : Db),
      (ids.foldl (fun d p => recalcAssetBalance N p tokenId d) d).portfolios = d.portfolios := by
    intro ids
    induction ids with
    | nil => exact fun _ => rfl
    | cons p ids ih =>
        intro d
        rw [List.foldl_cons, ih]
        exact recalcAssetBalance_frame.2.1
  unfold recalcTargets
  rw [List.foldl_map]
  obtain ⟨htotals, hkept, htransactions⟩ := @recalcTotals_rows N ps
    (ps.foldl (fun d p => recalcAssetBalance N p tokenId d) back)
  refine ⟨?_, ?_, ?_⟩
  · have hsettled := @transactions_recalcTargets N (ps.map fun p => (p, tokenId)) [] back
    unfold recalcTargets at hsettled
    rw [List.foldl_map] at hsettled
    exact (congrArg SerialTable.rows (htransactions.trans hsettled)).trans hrows
  · exact (congrArg Table.rows hkept).trans hassets
  · refine htotals.trans ?_
    rw [hportfolios', hdrift.portfolios_retotalled, hportfolios]
    apply List.map_congr_left
    intro q _
    unfold retotalled netDepositSum assetsOf
    rw [hkept]

namespace Undone

theorem findAsset_of_mem (h : Undone N ps tokenId symbol db db') {p : ℕ} (hp : p ∈ ps) :
    db'.findAsset p tokenId =
      some (resettled N ps tokenId symbol db (heldAsset db p tokenId)) := by
  refine Table.find?_eq_some_iff.mpr ⟨?_, by rw [key_resettled, key_heldAsset]⟩
  rw [h.assets]
  exact List.mem_map_of_mem (heldAsset_mem_opened hp)

theorem holding_of_mem (h : Undone N ps tokenId symbol db db') {p : ℕ} (hp : p ∈ ps) :
    holding db' p tokenId =
      (replay (heldAsset db p tokenId) (ledgerEvents db p symbol)).stored N := by
  rw [holding, h.findAsset_of_mem hp, resettled_of_mem hp (key_heldAsset db p tokenId)]
  rfl

theorem findAsset_of_notMem (h : Undone N ps tokenId symbol db db') {p t : ℕ}
    (hp : ¬ (t = tokenId ∧ p ∈ ps)) : db'.findAsset p t = db.findAsset p t := by
  have hfree : ∀ a : Asset, a.key = (p, t) → resettled N ps tokenId symbol db a = a := by
    intro a hkey
    apply resettled_of_notMem
    intro q hq heq
    rw [hkey, Prod.mk.injEq] at heq
    obtain ⟨rfl, rfl⟩ := heq
    exact hp ⟨rfl, hq⟩
  ext r
  unfold Db.findAsset
  rw [Table.find?_eq_some_iff, Table.find?_eq_some_iff, h.assets]
  constructor
  · rintro ⟨hmem, hkey⟩
    obtain ⟨a, ha, rfl⟩ := List.mem_map.mp hmem
    rw [key_resettled] at hkey
    rw [hfree a hkey]
    rcases List.mem_append.mp ha with ha | ha
    · exact ⟨ha, hkey⟩
    · obtain ⟨q, hq, -, rfl⟩ := mem_opened.mp ha
      obtain ⟨rfl, rfl⟩ := Prod.mk.inj hkey
      exact absurd ⟨rfl, hq⟩ hp
  · rintro ⟨hmem, hkey⟩
    refine ⟨List.mem_map.mpr ⟨r, List.mem_append_left _ hmem, hfree r hkey⟩, hkey⟩

theorem netDeposit_find (h : Undone N ps tokenId symbol db db') (p : ℕ) :
    (db'.findPortfolioById p).map Portfolio.netDeposit =
      (db.findPortfolioById p).map fun q => (retotalled N ps db' q).netDeposit := by
  have hcomp : (fun q => decide (Portfolio.id q = p)) ∘ retotalled N ps db' =
      fun q => decide (q.id = p) := by
    funext q
    rw [Function.comp_apply, id_retotalled]
  unfold Db.findPortfolioById SerialTable.find?
  rw [h.portfolios, List.find?_map, hcomp, Option.map_map]
  rfl

/-- When the assets come back, the rows are those of before and the opened ones. -/
theorem rows_of_reproduced (h : Undone N ps tokenId symbol db db')
    (hassets : ∀ p ∈ ps, holding db p tokenId =
      (replay (heldAsset db p tokenId) (ledgerEvents db p symbol)).stored N) :
    db'.assets.rows = db.assets.rows ++ opened ps tokenId db := by
  rw [h.assets]
  refine (List.map_congr_left fun a ha => ?_).trans (List.map_id _)
  by_cases hkey : ∃ p ∈ ps, a.key = (p, tokenId)
  · obtain ⟨p, hp, hkey⟩ := hkey
    have hheld : heldAsset db p tokenId = a := by
      rcases List.mem_append.mp ha with ha | ha
      · have hfind : db.findAsset p tokenId = some a := Table.find?_eq_some_iff.mpr ⟨ha, hkey⟩
        rw [heldAsset, hfind, Option.getD_some]
      · obtain ⟨q, -, hfind, rfl⟩ := mem_opened.mp ha
        obtain ⟨rfl, -⟩ := Prod.mk.inj hkey
        show (db.findAsset q tokenId).getD _ = _
        rw [hfind, Option.getD_none]
        rfl
    have hstored := hassets p hp
    rw [holding_eq_derived, hheld] at hstored
    rw [resettled_of_mem hp hkey, ← hstored, setDerived_derived]
    rfl
  · rw [resettled_of_notMem fun p hp hk => hkey ⟨p, hp, hk⟩]
    rfl

/-- An opened row adds nothing to a total. -/
theorem netDepositSum_opened {p : ℕ}
    (hrows : db'.assets.rows = db.assets.rows ++ opened ps tokenId db) :
    netDepositSum db' p = netDepositSum db p := by
  have hzero : (((opened ps tokenId db).filter fun a => a.portfolioId = p).map
      Asset.netDeposit).sum = 0 := by
    apply List.sum_eq_zero
    intro x hx
    obtain ⟨a, ha, rfl⟩ := List.mem_map.mp hx
    obtain ⟨q, -, -, rfl⟩ := mem_opened.mp (List.mem_of_mem_filter ha)
    rfl
  unfold netDepositSum assetsOf
  rw [hrows, List.filter_append, List.map_append, List.sum_append, hzero, add_zero]

theorem netDepositSum_eq (h : Undone N ps tokenId symbol db db')
    (hassets : ∀ p ∈ ps, holding db p tokenId =
      (replay (heldAsset db p tokenId) (ledgerEvents db p symbol)).stored N) (p : ℕ) :
    netDepositSum db' p = netDepositSum db p :=
  netDepositSum_opened (h.rows_of_reproduced hassets)

/-- The columns that are recalculated come back exactly when they were reproducible. -/
theorem restored_iff (h : Undone N ps tokenId symbol db db')
    (hknown : ∀ p ∈ ps, (db.findPortfolioById p).isSome) :
    Restored db db' ↔ ∀ p ∈ ps, Reproducible N db p tokenId symbol := by
  constructor
  · intro hrestored
    have hassets : ∀ p ∈ ps, holding db p tokenId =
        (replay (heldAsset db p tokenId) (ledgerEvents db p symbol)).stored N := by
      intro p hp
      rw [← hrestored.holdings, h.holding_of_mem hp]
    intro p hp
    refine ⟨hassets p hp, ?_⟩
    obtain ⟨q, hq⟩ := Option.isSome_iff_exists.mp (hknown p hp)
    have hid : q.id = p := (SerialTable.find?_eq_some_iff.mp hq).2
    rw [← hrestored.netDeposit, h.netDeposit_find, hq, Option.map_some]
    unfold retotalled
    rw [hid, if_pos hp, h.netDepositSum_eq hassets]
  · intro hall
    have hassets := fun p hp => (hall p hp).asset
    have hsame : ∀ p t, ¬ (t = tokenId ∧ p ∈ ps) → db'.findAsset p t = db.findAsset p t :=
      fun p t hp => h.findAsset_of_notMem hp
    refine ⟨fun p t hsome => ?_, fun p t => ?_, fun p => ?_⟩
    · by_cases hkey : t = tokenId ∧ p ∈ ps
      · obtain ⟨rfl, hp⟩ := hkey
        rw [h.findAsset_of_mem hp]
        rfl
      · rw [hsame p t hkey]
        exact hsome
    · by_cases hkey : t = tokenId ∧ p ∈ ps
      · obtain ⟨rfl, hp⟩ := hkey
        rw [h.holding_of_mem hp, hassets p hp]
      · rw [holding, holding, hsame p t hkey]
    · rw [h.netDeposit_find]
      cases hfind : db.findPortfolioById p with
      | none => rfl
      | some q =>
          have hid : q.id = p := (SerialTable.find?_eq_some_iff.mp hfind).2
          rw [Option.map_some, Option.map_some]
          unfold retotalled
          by_cases hp : p ∈ ps
          · have htotal := (hall p hp).total
            rw [hfind, Option.map_some] at htotal
            rw [hid, if_pos hp, h.netDepositSum_eq hassets]
            exact htotal.symm
          · rw [hid, if_neg hp]

/-- Reproducible values were stored before, so they fit their columns again. -/
theorem fits (h : Undone N ps tokenId symbol db db') (hfits : db.fits N)
    (hzero : ∀ p ∈ ps, db.findAsset p tokenId = none → N.fits 0)
    (hall : ∀ p ∈ ps, Reproducible N db p tokenId symbol) : db'.fits N := by
  have hassets := fun p hp => (hall p hp).asset
  unfold Db.fits at *
  simp only [Bool.and_eq_true, List.all_eq_true] at hfits ⊢
  obtain ⟨⟨hportfolios, hold⟩, htransactions⟩ := hfits
  refine ⟨⟨fun q' hq' => ?_, fun a ha => ?_⟩, ?_⟩
  · rw [h.portfolios] at hq'
    obtain ⟨q, hq, rfl⟩ := List.mem_map.mp hq'
    have hsame : retotalled N ps db' q = q := by
      unfold retotalled
      split
      · next hp =>
          have hfind : db.findPortfolioById q.id = some q :=
            SerialTable.find?_eq_some_iff.mpr ⟨hq, rfl⟩
          have htotal := (hall q.id hp).total
          rw [hfind, Option.map_some] at htotal
          rw [h.netDepositSum_eq hassets, ← Option.some.inj htotal]
      · rfl
    rw [hsame]
    exact hportfolios q hq
  · rw [h.rows_of_reproduced hassets] at ha
    rcases List.mem_append.mp ha with ha | ha
    · exact hold a ha
    · obtain ⟨p, hp, hnone, rfl⟩ := mem_opened.mp ha
      have hfit := hzero p hp hnone
      simp [Asset.decimals, emptyAsset, hfit]
  · rw [h.transactions]
    exact htransactions

end Undone

/-- The delete that ends in such a state succeeds and restores exactly when what was stored
was reproducible. -/
theorem commit_restored_iff (h : Undone N ps tokenId symbol db db') (hfits : db.fits N)
    (hzero : ∀ p ∈ ps, db.findAsset p tokenId = none → N.fits 0)
    (hknown : ∀ p ∈ ps, (db.findPortfolioById p).isSome) :
    (∃ db₂, db'.commit N = .ok db₂ ∧ Restored db db₂) ↔
      ∀ p ∈ ps, Reproducible N db p tokenId symbol := by
  constructor
  · rintro ⟨db₂, hcommit, hrestored⟩
    rw [(commit_ok hcommit).1] at hrestored
    exact (h.restored_iff hknown).mp hrestored
  · intro hall
    refine ⟨db', ?_, (h.restored_iff hknown).mpr hall⟩
    unfold Db.commit
    rw [if_pos (h.fits hfits hzero hall)]

end

end Neonfi.Ledger
