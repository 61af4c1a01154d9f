import Neonfi.Lib.Upsert
import Neonfi.Nfts.Writes

/-!
# Writing the collectibles again

The transfers of a page and the holdings that are reported after it put and drop rows.  The same
page and the same holdings once more leave every row as it is.
-/

namespace Neonfi.Nfts

open Lib
open Ledger (Portfolio)
open Wallet (Text storable)
open Webhooks (NftKey)

/-! ## The changes of an upsert -/

/-- The columns an upsert refreshes: the texts it has, and the spam verdict of a holding. -/
structure NftChange where
  name : Option String
  description : Option String
  logoUrl : Option String
  spam : Option (Bool × Bool)

namespace NftChange

def apply (c : NftChange) (r : NftRecord) : NftRecord :=
  { r with
    name := c.name.or r.name
    description := c.description.or r.description
    logoUrl := c.logoUrl.or r.logoUrl
    possibleSpam := (c.spam.map Prod.fst).getD r.possibleSpam
    spam := (c.spam.map Prod.snd).getD r.spam }

/-- The change, then another one. -/
def followedBy (c d : NftChange) : NftChange where
  name := d.name.or c.name
  description := d.description.or c.description
  logoUrl := d.logoUrl.or c.logoUrl
  spam := d.spam.or c.spam

theorem apply_followedBy (c d : NftChange) (r : NftRecord) :
    (c.followedBy d).apply r = d.apply (c.apply r) := by
  unfold followedBy apply
  simp only [Option.or_assoc]
  cases d.spam <;> rfl

theorem apply_absorb (c d : NftChange) (r : NftRecord) :
    c.apply (d.apply (c.apply r)) = c.apply (d.apply r) := by
  have hor : ∀ x y z : Option String, x.or (y.or (x.or z)) = x.or (y.or z) := by
    intro x y z
    cases x <;> cases y <;> rfl
  unfold apply
  simp only [hor]
  cases c.spam <;> cases d.spam <;> rfl

end NftChange

def nftChanges : Set (NftRecord → NftRecord) := {f | ∃ c : NftChange, f = c.apply}

theorem absorbing_nftChanges : Absorbing nftChanges where
  id_mem := ⟨⟨none, none, none, none⟩, rfl⟩
  comp_mem := by
    rintro _ ⟨c, rfl⟩ _ ⟨d, rfl⟩
    exact ⟨c.followedBy d, funext fun r => (c.apply_followedBy d r).symm⟩
  absorb := by
    rintro _ ⟨c, rfl⟩ _ ⟨d, rfl⟩ r
    exact c.apply_absorb d r

/-! ## One row -/

/-- What a put does to the row of a key. -/
def putOp (insertsFirst : Bool) (row : NftRecord) (texts : NftTexts)
    (update : NftRecord → NftRecord) (k : NftKey) : RowOp NftRecord :=
  if row.key = k ∧ storable row.contractAddress ∧ storable row.tokenId then
    .put (if row.createFits then some row else none)
      (if texts.fit && (!insertsFirst || row.createFits) then fun old => update (texts.refresh old)
        else id)
  else .put none id

def dropOp (j k : NftKey) : RowOp NftRecord :=
  if j = k ∧ storable j.2.1 ∧ storable j.2.2 then .drop else .put none id

theorem run_put_none (r : Option NftRecord) : (RowOp.put none id).run r = r := by
  cases r <;> rfl

section Put

variable {insertsFirst : Bool} {row : NftRecord} {texts : NftTexts}
  {update : NftRecord → NftRecord}

/-- An upsert of another row, or of one whose key cannot be stored, leaves this row alone. -/
theorem run_putOp_of_not {k : NftKey}
    (h : ¬ (row.key = k ∧ storable row.contractAddress ∧ storable row.tokenId))
    (r : Option NftRecord) : (putOp insertsFirst row texts update k).run r = r := by
  unfold putOp
  rw [if_neg h, run_put_none]

theorem find?_putNft (hupdate : ∀ r, (update r).key = r.key) (nfts : NftRecords) (k : NftKey) :
    ((putNft insertsFirst row texts update nfts).getD nfts).find? k =
      (putOp insertsFirst row texts update k).run (nfts.find? k) := by
  unfold putNft
  by_cases hstorable : storable row.contractAddress ∧ storable row.tokenId
  · rw [if_neg (not_not.mpr hstorable)]
    by_cases hkey : row.key = k
    · subst hkey
      have hop : row.key = row.key ∧ storable row.contractAddress ∧ storable row.tokenId :=
        ⟨rfl, hstorable⟩
      unfold putOp
      rw [if_pos hop]
      cases hfound : nfts.find? row.key with
      | none =>
          dsimp only
          by_cases hcreate : row.createFits
          · rw [if_pos hcreate, if_pos hcreate, Option.getD_some, Table.find?_set, if_pos rfl]
            rfl
          · rw [if_neg hcreate, if_neg hcreate, Option.getD_none, hfound]
            rfl
      | some old =>
          have hold : (update (texts.refresh old)).key = row.key :=
            (hupdate _).trans (Table.find?_eq_some_iff.mp hfound).2
          dsimp only
          by_cases haccepted : (texts.fit && (!insertsFirst || row.createFits)) = true
          · rw [if_pos haccepted, if_pos haccepted, Option.getD_some, Table.find?_set, hold,
              if_pos rfl]
            rfl
          · rw [if_neg haccepted, if_neg haccepted, Option.getD_none, hfound]
            rfl
    · rw [run_putOp_of_not fun h => hkey h.1]
      cases hfound : nfts.find? row.key with
      | none =>
          dsimp only
          split
          · rw [Option.getD_some, Table.find?_set, if_neg hkey]
          · rfl
      | some old =>
          have hold : (update (texts.refresh old)).key = row.key :=
            (hupdate _).trans (Table.find?_eq_some_iff.mp hfound).2
          dsimp only
          split
          · rw [Option.getD_some, Table.find?_set, hold, if_neg hkey]
          · rfl
  · rw [if_pos hstorable, run_putOp_of_not fun h => hstorable h.2]
    rfl

/-- Where the texts of a row fit, it can be created, or the upsert would not change it either. -/
def CreatesOrKeeps (insertsFirst : Bool) (row : NftRecord) (texts : NftTexts) : Prop :=
  insertsFirst = true ∨ (texts.fit = true → row.createFits = true)

theorem sound_putOp (k : NftKey) (hputs : CreatesOrKeeps insertsFirst row texts)
    (hchange : (fun old => update (texts.refresh old)) ∈ nftChanges)
    (hshows : update (texts.refresh row) = row) :
    (putOp insertsFirst row texts update k).Sound nftChanges := by
  have hid : (RowOp.put (none : Option NftRecord) id).Sound nftChanges :=
    ⟨absorbing_nftChanges.id_mem, by simp, fun _ => rfl⟩
  unfold putOp
  split
  · by_cases hcreate : row.createFits
    · rw [if_pos hcreate]
      refine ⟨?_, ?_, fun hnone => by cases hnone⟩
      · split
        · exact hchange
        · exact absorbing_nftChanges.id_mem
      · intro r hr
        cases hr
        split
        · exact hshows
        · rfl
    · have hrefused : (texts.fit && (!insertsFirst || row.createFits)) = false := by
        rw [Bool.and_eq_false_imp]
        intro hfit
        rcases hputs with hfirst | himplies
        · rw [hfirst, Bool.eq_false_iff.mpr hcreate]
          rfl
        · exact absurd (himplies hfit) hcreate
      rw [if_neg hcreate, if_neg (by simp [hrefused])]
      exact hid
  · exact hid

end Put

theorem find?_dropNft (j k : NftKey) (nfts : NftRecords) :
    ((dropNft j nfts).getD nfts).find? k = (dropOp j k).run (nfts.find? k) := by
  unfold dropNft dropOp
  by_cases hstorable : storable j.2.1 ∧ storable j.2.2
  · rw [if_pos hstorable, Option.getD_some]
    by_cases hkey : j = k
    · have hop : j = k ∧ storable j.2.1 ∧ storable j.2.2 := ⟨hkey, hstorable⟩
      rw [if_pos hop]
      show Table.find? _ k = none
      rw [Table.find?_eq_none_iff]
      intro r hr
      have hne := (List.mem_filter.mp hr).2
      rw [hkey] at hne
      exact of_decide_eq_true hne
    · rw [if_neg fun h => hkey h.1, run_put_none]
      apply Table.find?_filter
      intro r hr
      rw [hr]
      simpa using Ne.symm hkey
  · rw [if_neg hstorable, if_neg fun h => hstorable h.2, run_put_none]
    rfl

/-! ## The page and the holdings -/

section Again

variable (text : Text) (insertsFirst : Bool) (portfolioId : ℕ) (chainSlug : String)
  (classifyNftSpam : SpamSignals → Bool) (spamContracts : List String)

def transferOp (k : NftKey) (tr : HistoryTransfer) : RowOp NftRecord :=
  if tr.incoming then
    putOp insertsFirst (tr.nftRow text portfolioId chainSlug) tr.texts id k
  else dropOp (tr.nftKey text portfolioId) k

def WalletNftHolding.texts (h : WalletNftHolding) : NftTexts := ⟨h.name, h.description, h.logoUrl⟩

/-- The verdict on a holding of the list. -/
def WalletNftHolding.verdict (holdings : List WalletNftHolding) (h : WalletNftHolding) : Bool :=
  classifyNftSpam
    { possibleSpam := h.possibleSpam
      spamContract := text.toLowerCase h.contractAddress ∈ spamContracts
      name := h.name
      collectionName := h.collectionName
      contractAddress := h.contractAddress
      heldCount := holdings.countP fun h' =>
        text.toLowerCase h'.contractAddress = text.toLowerCase h.contractAddress }

/-- The row a holding is created with. -/
def WalletNftHolding.nftRow (h : WalletNftHolding) (spam : Bool) : NftRecord where
  portfolioId
  contractAddress := h.contractAddress
  tokenId := h.tokenId
  chain := chainSlug
  name := h.name
  description := h.description
  collectionName := h.collectionName
  logoUrl := h.logoUrl
  tokenStandard := h.tokenStandard
  floorPrice := none
  floorPriceUsd := none
  lastSale := none
  lastSaleNote := none
  rarity := none
  traits := none
  possibleSpam := h.possibleSpam
  spam

def holdingOp (holdings : List WalletNftHolding) (k : NftKey) (h : WalletNftHolding) :
    RowOp NftRecord :=
  let spam := h.verdict text classifyNftSpam spamContracts holdings
  putOp insertsFirst (h.nftRow portfolioId chainSlug spam) h.texts
    (fun old => { old with possibleSpam := h.possibleSpam, spam }) k

/-- The writes of a page and of the holdings reported after it, to the row of a key. -/
def rewriteOps (transfers : List HistoryTransfer) (holdings : List WalletNftHolding) (k : NftKey) :
    List (RowOp NftRecord) :=
  ((ordered transfers).filter fun tr => tr.namesNft text).map
      (transferOp text insertsFirst portfolioId chainSlug k) ++
    holdings.map (holdingOp text insertsFirst portfolioId chainSlug classifyNftSpam spamContracts
      holdings k)

/-- Every collectible whose texts fit can be created. -/
structure AllCreatable (transfers : List HistoryTransfer) (holdings : List WalletNftHolding) :
    Prop where
  transfers : ∀ tr ∈ transfers, tr.namesNft text → tr.incoming →
    CreatesOrKeeps insertsFirst (tr.nftRow text portfolioId chainSlug) tr.texts
  holdings : ∀ h ∈ holdings, ∀ spam,
    CreatesOrKeeps insertsFirst (h.nftRow portfolioId chainSlug spam) h.texts

variable {text insertsFirst chainSlug classifyNftSpam spamContracts} {portfolio : Portfolio}

theorem find?_storeTransfer (tr : HistoryTransfer) (nfts : NftRecords) (k : NftKey) :
    ((storeTransfer text insertsFirst portfolio chainSlug tr nfts).getD nfts).find? k =
      (transferOp text insertsFirst portfolio.id chainSlug k tr).run (nfts.find? k) := by
  unfold storeTransfer transferOp
  split
  · exact find?_putNft (fun _ => rfl) nfts k
  · exact find?_dropNft _ k nfts

theorem importNftHolding_eq (holdings : List WalletNftHolding) (h : WalletNftHolding)
    (nfts : NftRecords) :
    importNftHolding text insertsFirst portfolio chainSlug classifyNftSpam spamContracts holdings h
        nfts =
      putNft insertsFirst
        (h.nftRow portfolio.id chainSlug (h.verdict text classifyNftSpam spamContracts holdings))
        h.texts
        (fun old =>
          { old with
            possibleSpam := h.possibleSpam
            spam := h.verdict text classifyNftSpam spamContracts holdings }) nfts := rfl

theorem find?_importNftHolding (holdings : List WalletNftHolding) (h : WalletNftHolding)
    (nfts : NftRecords) (k : NftKey) :
    ((importNftHolding text insertsFirst portfolio chainSlug classifyNftSpam spamContracts holdings
      h nfts).getD nfts).find? k =
      (holdingOp text insertsFirst portfolio.id chainSlug classifyNftSpam spamContracts holdings k
        h).run (nfts.find? k) := by
  rw [importNftHolding_eq]
  refine find?_putNft ?_ nfts k
  intro r
  rfl

/-- Writes that each act on the row of a key act on it one after the other. -/
theorem find?_foldl {α : Type} {step : NftRecords → α → NftRecords} {op : α → RowOp NftRecord}
    {k : NftKey} (hstep : ∀ nfts a, (step nfts a).find? k = (op a).run (nfts.find? k))
    (as : List α) (nfts : NftRecords) :
    (as.foldl step nfts).find? k = (as.map op).foldl (fun r op => op.run r) (nfts.find? k) := by
  induction as generalizing nfts with
  | nil => rfl
  | cons a as ih => rw [List.foldl_cons, ih, hstep, List.map_cons, List.foldl_cons]

/-- The page and the holdings, row by row. -/
theorem find?_rewritten (transfers : List HistoryTransfer) (holdings : List WalletNftHolding)
    (nfts : NftRecords) (k : NftKey) :
    (importNftHoldings text insertsFirst portfolio chainSlug classifyNftSpam spamContracts holdings
      (storedTransfers text insertsFirst portfolio chainSlug transfers nfts).2).find? k =
      (rewriteOps text insertsFirst portfolio.id chainSlug classifyNftSpam spamContracts transfers
        holdings k).foldl (fun r op => op.run r) (nfts.find? k) := by
  unfold importNftHoldings storedTransfers rewriteOps
  rw [tried_snd, List.foldl_append,
    find?_foldl (fun nfts h => find?_importNftHolding holdings h nfts k),
    find?_foldl fun nfts tr => find?_storeTransfer tr nfts k]

theorem sound_rewriteOps {transfers : List HistoryTransfer} {holdings : List WalletNftHolding}
    (h : AllCreatable text insertsFirst portfolio.id chainSlug transfers holdings) (k : NftKey) :
    ∀ op ∈ rewriteOps text insertsFirst portfolio.id chainSlug classifyNftSpam spamContracts transfers
      holdings k, op.Sound nftChanges := by
  have htruthy : ∀ x : Option String, (truthy x).or x = x := by
    intro x
    unfold truthy
    cases x with
    | none => rfl
    | some s =>
        by_cases hs : s = ""
        · subst hs
          rfl
        · simp [Option.filter, hs]
  intro op hop
  rcases List.mem_append.mp hop with hop | hop
  · obtain ⟨tr, htr, rfl⟩ := List.mem_map.mp hop
    obtain ⟨hmem, hnames⟩ := List.mem_filter.mp htr
    rw [decide_eq_true_iff] at hnames
    have hpage : tr ∈ transfers := (List.mem_insertionSort _).mp hmem
    unfold transferOp
    split
    · next hin =>
        refine sound_putOp k (h.transfers tr hpage hnames hin) ?_ ?_
        · exact ⟨⟨truthy tr.name, truthy tr.description, truthy tr.logoUrl, none⟩, rfl⟩
        · unfold NftTexts.refresh
          simp only [id, HistoryTransfer.texts, HistoryTransfer.nftRow, htruthy]
    · unfold dropOp
      split
      · trivial
      · exact ⟨absorbing_nftChanges.id_mem, by simp, fun _ => rfl⟩
  · obtain ⟨held, hheld, rfl⟩ := List.mem_map.mp hop
    unfold holdingOp
    refine sound_putOp k (h.holdings held hheld _) ?_ ?_
    · exact ⟨⟨truthy held.name, truthy held.description, truthy held.logoUrl,
        some (held.possibleSpam, held.verdict text classifyNftSpam spamContracts holdings)⟩, rfl⟩
    · unfold NftTexts.refresh
      simp only [WalletNftHolding.texts, WalletNftHolding.nftRow, htruthy]

/-- The same page and the same holdings once more leave every row as it is. -/
theorem find?_rewritten_again {transfers : List HistoryTransfer} {holdings : List WalletNftHolding}
    (h : AllCreatable text insertsFirst portfolio.id chainSlug transfers holdings)
    {nfts nfts' : NftRecords}
    (hfirst : ∀ k, nfts'.find? k =
      (importNftHoldings text insertsFirst portfolio chainSlug classifyNftSpam spamContracts
        holdings (storedTransfers text insertsFirst portfolio chainSlug transfers nfts).2).find? k)
    (k : NftKey) :
    (importNftHoldings text insertsFirst portfolio chainSlug classifyNftSpam spamContracts holdings
      (storedTransfers text insertsFirst portfolio chainSlug transfers nfts').2).find? k =
      nfts'.find? k := by
  rw [find?_rewritten, hfirst, find?_rewritten]
  exact RowOp.run_run absorbing_nftChanges (sound_rewriteOps h k) _

end Again

end Neonfi.Nfts
