import Neonfi.Wallet.Resolution
import Neonfi.Wallet.Sync

/-!
# The cost map, built again

An item of the provider's PnL list goes to the row of a held token with its contract, else to
the catalog row that lists it.  Which rows the portfolio has decides when the item is set, and
that only matters where items of two contracts go to one row.
-/

namespace Neonfi.Wallet

open Lib
open Ledger (Db Token Asset)

/-! ## The last value of a key -/

section LastSet

variable {κ α : Type} [DecidableEq κ]

theorem lastSet_eq_getLast? (entries : List (κ × α)) (key : κ) :
    lastSet entries key = ((entries.filter fun entry => entry.1 = key).getLast?).map Prod.snd := by
  unfold lastSet
  rw [← List.head?_reverse, ← List.filter_reverse, List.head?_filter]

theorem mem_of_lastSet {entries : List (κ × α)} {key : κ} {a : α}
    (h : lastSet entries key = some a) : (key, a) ∈ entries := by
  rw [lastSet_eq_getLast?] at h
  obtain ⟨entry, hlast, rfl⟩ := Option.map_eq_some_iff.mp h
  obtain ⟨hmem, hkey⟩ := List.mem_filter.mp (List.mem_of_getLast? hlast)
  obtain rfl := of_decide_eq_true hkey
  exact hmem

theorem isSome_lastSet_iff {entries : List (κ × α)} {key : κ} :
    (lastSet entries key).isSome ↔ key ∈ entries.map Prod.fst := by
  constructor
  · intro h
    obtain ⟨a, ha⟩ := Option.isSome_iff_exists.mp h
    exact List.mem_map_of_mem (mem_of_lastSet ha)
  · intro h
    obtain ⟨entry, hmem, rfl⟩ := List.mem_map.mp h
    have hne : entries.filter (fun e => e.1 = entry.1) ≠ [] :=
      List.ne_nil_of_mem (List.mem_filter.mpr ⟨hmem, decide_eq_true rfl⟩)
    rw [lastSet_eq_getLast?, List.getLast?_eq_some_getLast hne]
    rfl

/-- Splitting a list does not reorder elements that all come to one side. -/
theorem filter_of_agree {p q : α → Bool} {l : List α}
    (h : ∀ a ∈ l, ∀ b ∈ l, q a → q b → p a = p b) :
    ((l.filter p).filter q) ++ ((l.filter fun a => !p a).filter q) = l.filter q := by
  rw [List.filter_filter, List.filter_filter]
  by_cases hside : ∃ a ∈ l, q a ∧ p a
  · obtain ⟨a, ha, hqa, hpa⟩ := hside
    have hleft : l.filter (fun b => q b && p b) = l.filter q := by
      apply List.filter_congr
      intro b hb
      cases hqb : q b with
      | false => rfl
      | true => rw [← h a ha b hb hqa hqb, hpa, Bool.and_true]
    have hright : l.filter (fun b => q b && !p b) = [] := by
      rw [List.filter_eq_nil_iff]
      intro b hb hqpb
      obtain ⟨hqb, hpb⟩ := Bool.and_eq_true_iff.mp hqpb
      rw [← h a ha b hb hqa hqb, hpa] at hpb
      cases hpb
    rw [hleft, hright, List.append_nil]
  · have hleft : l.filter (fun b => q b && p b) = [] := by
      rw [List.filter_eq_nil_iff]
      intro b hb hqpb
      exact hside ⟨b, hb, Bool.and_eq_true_iff.mp hqpb⟩
    have hright : l.filter (fun b => q b && !p b) = l.filter q := by
      apply List.filter_congr
      intro b hb
      cases hqb : q b with
      | false => rfl
      | true =>
          have hpb : p b = false := Bool.eq_false_iff.mpr fun hpb => hside ⟨b, hb, hqb, hpb⟩
          rw [hpb]
          rfl
    rw [hleft, hright, List.nil_append]

end LastSet

/-! ## Where an item goes -/

/-- The items that tell something, by contract. -/
def informative (pnl : List PnlToken) : List (String × TokenCost) :=
  pnl.filterMap fun t =>
    (t.contractAddress.filter fun contract => contract ≠ "" ∧ t.hasInfo).map fun contract =>
      (contract, t.cost)

/-- The row of the last held token with the contract. -/
def heldContract (held : List HeldToken) (contract : String) : Option ℕ :=
  lastSet
    (held.filterMap fun h => (h.contractAddress.filter (· ≠ "")).map fun contract =>
      (contract, h.tokenId))
    contract

section Items

variable (text : Text)

/-- The contract is listed in lower case, by one row at most. -/
structure ListedOnce (db : Db) (contract : String) : Prop where
  lower : ∀ t ∈ db.tokens.rows, ∀ c, t.contractAddress = some c →
    text.toLowerCase c = contract → c = contract
  once : ∀ t ∈ db.tokens.rows, ∀ t' ∈ db.tokens.rows, t.contractAddress = some contract →
    t'.contractAddress = some contract → t = t'

/-- The row an item goes to, whether it is set early or late. -/
def costRow (held : List HeldToken) (db : Db) (contract : String) : Option ℕ :=
  (heldContract held contract).or (catalogContract text db contract)

def isKnown (p : ℕ) (held : List HeldToken) (db : Db) (item : String × TokenCost) : Bool :=
  (knownContract text p held db item.1).isSome

def costEntries (held : List HeldToken) (db : Db) (items : List (String × TokenCost)) : CostMap :=
  items.filterMap fun item => (costRow text held db item.1).map fun tokenId => (tokenId, item.2)

variable {text} {p : ℕ} {held : List HeldToken} {db db' : Db} {contract : String}

theorem catalogContract_eq_some_iff (hlower : text.toLowerCase contract = contract)
    (honce : ListedOnce text db contract) {tokenId : ℕ} :
    catalogContract text db contract = some tokenId ↔
      ∃ t ∈ db.tokens.rows, t.contractAddress = some contract ∧ t.id = tokenId := by
  have hcatalog : ∀ n, catalogContract text db contract = some n →
      ∃ t ∈ db.tokens.rows, t.contractAddress = some contract ∧ t.id = n := by
    intro n h
    unfold catalogContract at h
    rw [hlower] at h
    obtain ⟨t, ht, hentry⟩ := List.mem_filterMap.mp (mem_of_lastSet h)
    obtain ⟨c, hc, heq⟩ := Option.map_eq_some_iff.mp hentry
    cases heq
    exact ⟨t, ht, hc, rfl⟩
  constructor
  · exact hcatalog tokenId
  · rintro ⟨t, ht, hcontract, rfl⟩
    have hsome : (catalogContract text db contract).isSome := by
      unfold catalogContract
      rw [hlower, isSome_lastSet_iff]
      refine List.mem_map.mpr ⟨(contract, t.id), List.mem_filterMap.mpr ⟨t, ht, ?_⟩, rfl⟩
      rw [hcontract]
      rfl
    obtain ⟨n, hn⟩ := Option.isSome_iff_exists.mp hsome
    obtain ⟨t', ht', hcontract', rfl⟩ := hcatalog n hn
    rw [hn, honce.once t ht t' ht' hcontract hcontract']

/-- A row of the portfolio that lists the contract is the one the catalog has. -/
theorem knownContract_cases (hlower : text.toLowerCase contract = contract)
    (honce : ListedOnce text db contract) :
    knownContract text p held db contract = none ∨
      knownContract text p held db contract = costRow text held db contract := by
  have hknown : knownContract text p held db contract = (heldContract held contract).or
      (lastSet (db.assets.rows.filterMap fun a =>
        if a.portfolioId = p then
          ((db.findTokenById a.tokenId).bind Token.contractAddress).map fun contract =>
            (text.toLowerCase contract, a.tokenId)
        else none) contract) := rfl
  unfold costRow
  rw [hknown]
  cases hheld : heldContract held contract with
  | some tokenId => exact .inr rfl
  | none =>
      rw [Option.none_or, Option.none_or]
      cases hexisting : lastSet _ contract with
      | none => exact .inl rfl
      | some tokenId =>
          right
          obtain ⟨a, -, hentry⟩ := List.mem_filterMap.mp (mem_of_lastSet hexisting)
          split at hentry
          · obtain ⟨c, hc, heq⟩ := Option.map_eq_some_iff.mp hentry
            obtain ⟨t, ht, hrow⟩ := Option.bind_eq_some_iff.mp hc
            obtain ⟨hmem, hid⟩ := SerialTable.find?_eq_some_iff.mp ht
            obtain ⟨hsame, rfl⟩ := Prod.mk.inj heq
            rw [honce.lower t hmem c hrow hsame] at hrow
            exact ((catalogContract_eq_some_iff hlower honce).mpr ⟨t, hmem, hrow, hid⟩).symm
          · cases hentry

/-- The `set` calls, in order. -/
theorem getD_buildConnectedCostMap {pnl : List PnlToken} :
    (buildConnectedCostMap text p held pnl db).getD [] =
      (informative pnl).filterMap (fun item =>
        (knownContract text p held db item.1).map fun tokenId => (tokenId, item.2)) ++
      ((informative pnl).filter fun item =>
        knownContract text p held db item.1 = none).filterMap fun item =>
          (catalogContract text db item.1).map fun tokenId => (tokenId, item.2) := by
  unfold buildConnectedCostMap
  dsimp only
  split
  · next hempty => exact hempty.symm
  · rfl

/-- The early and the late items all go to their rows. -/
theorem buildConnectedCostMap_eq {pnl : List PnlToken}
    (hlower : ∀ item ∈ informative pnl, text.toLowerCase item.1 = item.1)
    (honce : ∀ item ∈ informative pnl, ListedOnce text db item.1) :
    (buildConnectedCostMap text p held pnl db).getD [] =
      costEntries text held db ((informative pnl).filter (isKnown text p held db)) ++
        costEntries text held db ((informative pnl).filter fun item =>
          !isKnown text p held db item) := by
  rw [getD_buildConnectedCostMap]
  unfold costEntries
  rw [List.filterMap_filter, List.filterMap_filter, List.filterMap_filter]
  congr 1
  · apply List.filterMap_congr
    intro item hitem
    unfold isKnown
    rcases @knownContract_cases text p held db item.1 (hlower item hitem) (honce item hitem) with
      hnone | hsame
    · rw [hnone]
      rfl
    · rw [hsame]
      cases costRow text held db item.1 <;> rfl
  · apply List.filterMap_congr
    intro item _
    unfold isKnown costRow
    cases hknown : knownContract text p held db item.1 with
    | some tokenId => rfl
    | none =>
        have hheld : heldContract held item.1 = none := (Option.or_eq_none_iff.mp hknown).1
        rw [hheld]
        rfl

theorem isSome_buildConnectedCostMap_iff {pnl : List PnlToken} :
    (buildConnectedCostMap text p held pnl db).isSome ↔
      ∃ tokenId, (lastSet ((buildConnectedCostMap text p held pnl db).getD []) tokenId).isSome := by
  constructor
  · intro h
    obtain ⟨map, hmap⟩ := Option.isSome_iff_exists.mp h
    have hne : map ≠ [] := by
      unfold buildConnectedCostMap at hmap
      dsimp only at hmap
      split at hmap
      · cases hmap
      · next hne =>
          cases hmap
          exact hne
    obtain ⟨entry, hentry⟩ := List.exists_mem_of_ne_nil map hne
    refine ⟨entry.1, isSome_lastSet_iff.mpr ?_⟩
    rw [hmap]
    exact List.mem_map_of_mem hentry
  · rintro ⟨tokenId, h⟩
    cases hmap : buildConnectedCostMap text p held pnl db with
    | some map => rfl
    | none =>
        rw [hmap] at h
        cases h

/-- Items of two contracts do not go to one row, unless both are held. -/
def ItemsApart (text : Text) (held : List HeldToken) (pnl : List PnlToken) (db : Db) : Prop :=
  ∀ item ∈ informative pnl, ∀ item' ∈ informative pnl, ∀ tokenId,
    heldContract held item.1 = some tokenId → heldContract held item'.1 = none →
      catalogContract text db item'.1 ≠ some tokenId

/-- Of the items that go to one row, all or none are set early. -/
theorem isKnown_eq {pnl : List PnlToken}
    (hlower : ∀ item ∈ informative pnl, text.toLowerCase item.1 = item.1)
    (honce : ∀ item ∈ informative pnl, ListedOnce text db item.1)
    (hapart : ItemsApart text held pnl db) {item item' : String × TokenCost} {tokenId : ℕ}
    (hitem : item ∈ informative pnl) (hitem' : item' ∈ informative pnl)
    (hrow : costRow text held db item.1 = some tokenId)
    (hrow' : costRow text held db item'.1 = some tokenId) :
    isKnown text p held db item = isKnown text p held db item' := by
  have hknown : ∀ {i : String × TokenCost} {n : ℕ}, heldContract held i.1 = some n →
      isKnown text p held db i = true := by
    intro i n hheld
    have hor : knownContract text p held db i.1 = (heldContract held i.1).or _ := rfl
    unfold isKnown
    rw [hor, hheld, Option.some_or]
    rfl
  unfold costRow at hrow hrow'
  cases hheld : heldContract held item.1 with
  | some n =>
      rw [hheld, Option.some_or] at hrow
      cases hheld' : heldContract held item'.1 with
      | some n' => rw [hknown hheld, hknown hheld']
      | none =>
          rw [hheld', Option.none_or] at hrow'
          exact absurd hrow' (hapart item hitem item' hitem' tokenId (hheld.trans hrow) hheld')
  | none =>
      rw [hheld, Option.none_or] at hrow
      cases hheld' : heldContract held item'.1 with
      | some n' =>
          rw [hheld', Option.some_or] at hrow'
          exact absurd hrow (hapart item' hitem' item hitem tokenId (hheld'.trans hrow') hheld)
      | none =>
          rw [hheld', Option.none_or] at hrow'
          obtain ⟨t, ht, hcontract, hid⟩ :=
            (catalogContract_eq_some_iff (hlower item hitem) (honce item hitem)).mp hrow
          obtain ⟨t', ht', hcontract', hid'⟩ :=
            (catalogContract_eq_some_iff (hlower item' hitem') (honce item' hitem')).mp hrow'
          obtain rfl := SerialTable.eq_of_id_eq ht ht' (hid.trans hid'.symm)
          rw [hcontract] at hcontract'
          unfold isKnown
          rw [Option.some.inj hcontract']

/-- The last item of a row decides, whether it is set early or late. -/
theorem lastSet_buildConnectedCostMap {pnl : List PnlToken}
    (hlower : ∀ item ∈ informative pnl, text.toLowerCase item.1 = item.1)
    (honce : ∀ item ∈ informative pnl, ListedOnce text db item.1)
    (hapart : ItemsApart text held pnl db) (tokenId : ℕ) :
    lastSet ((buildConnectedCostMap text p held pnl db).getD []) tokenId =
      lastSet (costEntries text held db (informative pnl)) tokenId := by
  have hfilter : ∀ items : List (String × TokenCost),
      (costEntries text held db items).filter (fun entry => entry.1 = tokenId) =
        (items.filter fun item => costRow text held db item.1 = some tokenId).map fun item =>
          (tokenId, item.2) := by
    intro items
    unfold costEntries
    induction items with
    | nil => rfl
    | cons item items ih =>
        rw [List.filterMap_cons, List.filter_cons]
        cases hrow : costRow text held db item.1 with
        | none => simpa using ih
        | some n =>
            by_cases hn : n = tokenId
            · subst hn
              simpa using ih
            · simpa [hn] using ih
  rw [buildConnectedCostMap_eq hlower honce, lastSet_eq_getLast?, lastSet_eq_getLast?,
    List.filter_append, hfilter, hfilter, hfilter, ← List.map_append]
  rw [filter_of_agree]
  intro item hitem item' hitem' hrow hrow'
  exact isKnown_eq hlower honce hapart hitem hitem' (of_decide_eq_true hrow) (of_decide_eq_true hrow')

end Items

/-! ## Balances that are set again -/

/-- Cost maps with the same entry for every row. -/
structure SameCost (cost cost' : Option CostMap) : Prop where
  given : cost.isSome = cost'.isSome
  last : ∀ tokenId, lastSet (cost.getD []) tokenId = lastSet (cost'.getD []) tokenId

section Again

variable {text : Text} {p : ℕ} {held : List HeldToken} {db db' : Db} {cost cost' : Option CostMap}

/-- The portfolio's rows have no part in what the map says. -/
theorem sameCost_resolveConnectedCostMap {pnl : Option (List PnlToken)}
    (htokens : db'.tokens = db.tokens)
    (hlower : ∀ item ∈ informative (pnl.getD []), text.toLowerCase item.1 = item.1)
    (honce : ∀ item ∈ informative (pnl.getD []), ListedOnce text db item.1)
    (hapart : ItemsApart text held (pnl.getD []) db) :
    SameCost (resolveConnectedCostMap text p held pnl db)
      (resolveConnectedCostMap text p held pnl db') := by
  cases pnl with
  | none => exact ⟨rfl, fun _ => rfl⟩
  | some pnl =>
      rw [Option.getD_some] at hlower honce hapart
      have hcatalog : ∀ contract,
          catalogContract text db' contract = catalogContract text db contract := by
        intro contract
        unfold catalogContract
        rw [htokens]
      have honce' : ∀ item ∈ informative pnl, ListedOnce text db' item.1 := by
        intro item hitem
        exact ⟨by rw [htokens]; exact (honce item hitem).lower,
          by rw [htokens]; exact (honce item hitem).once⟩
      have hapart' : ItemsApart text held pnl db' := by
        intro item hitem item' hitem' tokenId hheld hheld'
        rw [hcatalog]
        exact hapart item hitem item' hitem' tokenId hheld hheld'
      have hentries : costEntries text held db' (informative pnl) =
          costEntries text held db (informative pnl) := by
        unfold costEntries costRow
        simp only [hcatalog]
      have hlast : ∀ tokenId,
          lastSet ((buildConnectedCostMap text p held pnl db).getD []) tokenId =
            lastSet ((buildConnectedCostMap text p held pnl db').getD []) tokenId := by
        intro tokenId
        rw [lastSet_buildConnectedCostMap hlower honce hapart,
          lastSet_buildConnectedCostMap hlower honce' hapart', hentries]
      refine ⟨?_, hlast⟩
      show (buildConnectedCostMap text p held pnl db).isSome =
        (buildConnectedCostMap text p held pnl db').isSome
      rw [Bool.eq_iff_iff, isSome_buildConnectedCostMap_iff, isSome_buildConnectedCostMap_iff]
      simp only [hlast]

theorem mem_setIds_iff {tokenId : ℕ} : tokenId ∈ setIds held cost ↔
    tokenId ∈ held.map HeldToken.tokenId ∨ (lastSet (cost.getD []) tokenId).isSome := by
  unfold setIds
  rw [List.mem_eraseDups, List.mem_append, isSome_lastSet_iff]

theorem SameCost.balanceWrite (h : SameCost cost cost') (tokenId : ℕ) :
    balanceWrite held cost' tokenId = balanceWrite held cost tokenId := by
  unfold Wallet.balanceWrite
  have hlast := h.last tokenId
  have hgiven := h.given
  cases cost with
  | none =>
      cases cost' with
      | none => rfl
      | some map' => cases hgiven
  | some map =>
      cases cost' with
      | none => cases hgiven
      | some map' =>
          rw [Option.getD_some, Option.getD_some] at hlast
          dsimp only
          rw [Option.map_some, Option.map_some, hlast]

theorem SameCost.zeroed (h : SameCost cost cost') (a : Asset) :
    Wallet.zeroed cost' (Wallet.zeroed cost a) = Wallet.zeroed cost a := by
  have hgiven := h.given
  cases cost with
  | none =>
      cases cost' with
      | none => rfl
      | some map' => cases hgiven
  | some map =>
      cases cost' with
      | none => cases hgiven
      | some map' => rfl

/-- Under the same costs the pass once more leaves every row as it is. -/
theorem findAsset_setConnectedBalances_again (hcost : SameCost cost cost')
    (hfirst : ∀ q u, db'.findAsset q u =
      (setConnectedBalancesFromSummary p held cost db).findAsset q u) (q u : ℕ) :
    (setConnectedBalancesFromSummary p held cost' db').findAsset q u = db'.findAsset q u := by
  have hids : u ∈ setIds held cost' ↔ u ∈ setIds held cost := by
    rw [mem_setIds_iff, mem_setIds_iff, hcost.last]
  rw [findAsset_setConnectedBalances, hcost.balanceWrite, hfirst, findAsset_setConnectedBalances]
  by_cases hq : q = p
  · rw [if_neg (not_not.mpr hq), if_neg (not_not.mpr hq)]
    by_cases hu : u ∈ setIds held cost
    · rw [if_neg (not_not.mpr (hids.mpr hu)), if_neg (not_not.mpr hu)]
      split
      · rw [Option.getD_some, BalanceWrite.apply_apply]
      · rfl
    · rw [if_pos (mt hids.mp hu), if_pos hu, Option.map_map]
      congr 1
      funext a
      exact hcost.zeroed a
  · rw [if_pos hq, if_pos hq]

end Again

/-! ## Where the catalog lists a contract once -/

section Listed

variable {text : Text} {db db' : Db} {contract : String} {inputs : List TokenResolveInput}
  (hcompare : Equivalence fun a b => text.insensitive a b)
  (hlower : ∀ s, text.toLowerCase (text.toLowerCase s) = text.toLowerCase s)
include hcompare hlower

omit hcompare in
theorem toLowerCase_contract {j : TokenResolveInput} {c : String}
    (h : j.contract text = some c) : text.toLowerCase c = c := by
  obtain ⟨raw, -, rfl⟩ := Option.map_eq_some_iff.mp h
  exact hlower raw

theorem ListedOnce.lists {j : TokenResolveInput} {token : Token}
    (h : ListedOnce text db contract) (hlists : Lists text j token db db') :
    ListedOnce text db' contract := by
  have hfresh : token.contractAddress = some contract →
      ∀ t ∈ db.tokens.rows, t.contractAddress ≠ some contract := by
    intro htoken t ht hcontract
    have hnone := hlists.findTokenByContract (hlists.contract_eq ▸ htoken)
    exact findTokenByContract_eq_none_iff.mp hnone t ht contract hcontract (hcompare.refl contract)
  constructor
  · intro t ht c hc hsame
    rcases hlists.mem_cases ht with hold | rfl
    · exact h.lower t hold c hc hsame
    · rw [← hsame, toLowerCase_contract hlower (hlists.contract_eq ▸ hc)]
  · intro t ht t' ht' hc hc'
    rcases hlists.mem_cases ht with hold | rfl
    · rcases hlists.mem_cases ht' with hold' | rfl
      · exact h.once t hold t' hold' hc hc'
      · exact absurd hc (hfresh hc' t hold)
    · rcases hlists.mem_cases ht' with hold' | rfl
      · exact absurd hc' (hfresh hc t' hold')
      · rfl

theorem ListedOnce.later (h : ListedOnce text db contract)
    (hlater : Later text inputs db db') : ListedOnce text db' contract := by
  induction hlater with
  | refl => exact h
  | tail _ hstep ih =>
      cases hstep with
      | elsewhere htokens =>
          exact ⟨by rw [htokens]; exact ih.lower, by rw [htokens]; exact ih.once⟩
      | lists hj hlists => exact ih.lists hcompare hlower hlists

end Listed

/-! ## Where the items are apart -/

/-- Every item is for a contract in lower case that the catalog lists once at most, and no
holding of one item's contract finds a row that lists the contract of another item, which no
holding has. -/
structure CostApart (text : Text) (ts : List WalletToken) (pnl : List PnlToken) (db : Db) :
    Prop where
  lower : ∀ item ∈ informative pnl, text.toLowerCase item.1 = item.1
  once : ∀ item ∈ informative pnl, ListedOnce text db item.1
  apart : ∀ t ∈ ts, ∀ item ∈ informative pnl, ∀ item' ∈ informative pnl,
    t.input.contract text = some item.1 →
      (∀ t' ∈ ts, t'.input.contract text ≠ some item'.1) →
        ∀ row ∈ db.tokens.rows, row.contractAddress = some item'.1 →
          ¬ text.insensitive item'.1 item.1 ∧ ¬ text.insensitive row.symbol t.symbol

section Apart

variable {text : Text} {inputs : List TokenResolveInput} {ts : List WalletToken}
  {pnl : List PnlToken} {db db' : Db}

theorem ne_empty_of_informative {item : String × TokenCost} (h : item ∈ informative pnl) :
    item.1 ≠ "" := by
  obtain ⟨t, -, hitem⟩ := List.mem_filterMap.mp h
  obtain ⟨contract, hcontract, rfl⟩ := Option.map_eq_some_iff.mp hitem
  exact (of_decide_eq_true (Option.filter_eq_some_iff.mp hcontract).2).1

/-- The holdings of a complete resolution keep the items apart that were. -/
theorem itemsApart (hcompare : Equivalence fun a b => text.insensitive a b)
    (hlower : ∀ s, text.toLowerCase (text.toLowerCase s) = text.toLowerCase s)
    (hagreed : Agreed text inputs db) (hinputs : heldInputs ts ⊆ inputs)
    (hcomplete : (resolveHeldTokens text ts db).1.length = ts.length)
    (h : CostApart text ts pnl db)
    (hlater : Later text inputs (resolveHeldTokens text ts db).2 db') :
    ItemsApart text (resolveHeldTokens text ts db).1 pnl db' := by
  intro item hitem item' hitem' tokenId hheld hheld' hcatalog
  have hwhole := (later_resolveHeldTokens hinputs db).trans hlater
  have honce := (h.once item' hitem').later hcompare hlower hwhole
  obtain ⟨row, hrow, hcontract', hid⟩ :=
    (catalogContract_eq_some_iff (h.lower item' hitem') honce).mp hcatalog
  obtain ⟨held, hmem, hentry⟩ := List.mem_filterMap.mp (mem_of_lastSet hheld)
  obtain ⟨contract, hcontract, heq⟩ := Option.map_eq_some_iff.mp hentry
  obtain ⟨rfl, rfl⟩ := Prod.mk.inj heq
  obtain ⟨t, ht, hi, hgiven, token, hfinds, htokenId, -⟩ :=
    settled_of_held hcompare hagreed hinputs hmem
  have hbrings : t.input.contract text = some item.1 :=
    hgiven.symm.trans (Option.filter_eq_some_iff.mp hcontract).1
  have hlisted : token.contractAddress.isSome := hfinds.listed (hbrings ▸ rfl)
  have hfound := findTokenFor_mem hfinds.found
  obtain rfl := SerialTable.eq_of_id_eq hrow (hlater.mem_of_listed hfound hlisted)
    (hid.trans htokenId.symm)
  -- the other contract is no holding's, so its row was in the catalog before
  have hnobody : ∀ t' ∈ ts, t'.input.contract text ≠ some item'.1 := by
    intro t' ht' hbrings'
    rw [← holdings_of_length_eq hcomplete] at ht'
    obtain ⟨r, hr, rfl⟩ := List.mem_map.mp ht'
    have hsome : (heldContract (resolveHeldTokens text ts db).1 item'.1).isSome := by
      unfold heldContract
      rw [isSome_lastSet_iff, held_eq_resolution]
      refine List.mem_map.mpr ⟨(item'.1, r.token.id), List.mem_filterMap.mpr
        ⟨_, List.mem_map_of_mem hr, ?_⟩, rfl⟩
      have hheld : (r.holding.held text r.token).contractAddress = some item'.1 := hbrings'
      rw [hheld, Option.filter_some, if_pos (by simpa using ne_empty_of_informative hitem')]
      rfl
    rw [hheld'] at hsome
    cases hsome
  have hinputsOnly : ∀ i ∈ heldInputs ts, i.contract text ≠ some item'.1 := by
    intro i hi
    obtain ⟨t', ht', rfl⟩ := List.mem_map.mp hi
    exact hnobody t' (List.mem_of_mem_filter ht')
  have hbefore : row ∈ db.tokens.rows :=
    (later_resolveHeldTokens (List.Subset.refl _) db).mem_of_contract hinputsOnly hfound hcontract'
  obtain ⟨hotherContract, hotherSymbol⟩ :=
    h.apart t ht item hitem item' hitem' hbrings hnobody row hbefore hcontract'
  have hlookup := hfinds.found
  rw [findTokenFor_eq, hbrings, Option.bind_some] at hlookup
  rcases Option.or_eq_some_iff.mp hlookup with hbyContract | ⟨-, hbySymbol⟩
  · have hany := List.find?_some hbyContract
    rw [hcontract', Option.any_some] at hany
    exact hotherContract hany
  · exact hotherSymbol (insensitive_of_findTokenBySymbol hbySymbol)

end Apart

end Neonfi.Wallet
