import Neonfi.Overview.Model

/-!
# Counting the transactions

A manual portfolio counts its rows, a connected one the total of its provider.  The totals are per
address and chain; the loop counts one total for each address in lower case, the first one.
-/

namespace Neonfi.Overview

open Lib Ledger

/-! ## What the loop counts -/

/-- An address on a chain. -/
abbrev Wallet := Option String × Option ℕ

/-- What the loop remembers of a wallet. -/
def Wallet.key (w : Wallet) : String := (w.1.getD "").toLower

/-- The transactions of the manual portfolios. -/
def manualCount (src : Sources) (portfolios : List PortfolioWithRelations) : ℕ :=
  ((portfolios.filter fun p => p.type = .manual).map fun p => src.dbTxCount p.id).sum

/-- The provider's total of a portfolio with its wallet. -/
def chainTotal (p : PortfolioWithRelations) : Option (Wallet × ℕ) :=
  if p.type = .connected then
    p.externalTxCount.map fun count => ((p.walletAddress, p.chainId), count)
  else none

def chainTotals (portfolios : List PortfolioWithRelations) : List (Wallet × ℕ) :=
  portfolios.filterMap chainTotal

/-- The totals by what the loop remembers. -/
def keyTotals (portfolios : List PortfolioWithRelations) : List (String × ℕ) :=
  (chainTotals portfolios).map fun x => (x.1.key, x.2)

section

variable {src : Sources} {portfolios : List PortfolioWithRelations}

theorem key_ne_empty {p : PortfolioWithRelations} (h : p.type = .connected) :
    (p.walletAddress.getD "").toLower ≠ "" := by
  have hwallet := (p.wallet h).1
  cases haddress : p.walletAddress with
  | none =>
      rw [haddress] at hwallet
      cases hwallet
  | some address =>
      rw [haddress] at hwallet
      have hne : address ≠ "" := by simpa using hwallet
      intro hempty
      apply hne
      have hchars : (address.toLower).toList = [] := by
        rw [show address.toLower = "" from hempty]
        rfl
      unfold String.toLower at hchars
      rw [String.toList_map, List.map_eq_nil_iff] at hchars
      exact String.toList_inj.mp hchars

theorem transactionCount_foldl (c : TxCounter) :
    (portfolios.foldl (TxCounter.step src) c).transactionCount =
      c.transactionCount + manualCount src portfolios +
        sumOnce c.countedWallets (keyTotals portfolios) := by
  induction portfolios generalizing c with
  | nil => rfl
  | cons p portfolios ih =>
      rw [List.foldl_cons, ih]
      unfold TxCounter.step manualCount keyTotals chainTotals
      cases htype : p.type with
      | manual =>
          have hnone : chainTotal p = none := by
            unfold chainTotal
            rw [htype]
            rfl
          rw [List.filterMap_cons_none hnone, List.filter_cons_of_pos (by simp [htype])]
          simp only [reduceCtorEq, if_false, List.map_cons, List.sum_cons]
          omega
      | connected =>
          rw [List.filter_cons_of_neg (by simp [htype])]
          cases htotal : p.externalTxCount with
          | none =>
              have hnone : chainTotal p = none := by
                unfold chainTotal
                rw [htype, htotal]
                rfl
              rw [List.filterMap_cons_none hnone]
              rfl
          | some count =>
              have hsome : chainTotal p = some ((p.walletAddress, p.chainId), count) := by
                unfold chainTotal
                rw [htype, htotal]
                rfl
              have hne := key_ne_empty htype
              rw [List.filterMap_cons_some hsome, List.map_cons, sumOnce_cons]
              unfold Wallet.key
              simp only [if_true, ne_eq, hne, not_false_eq_true, true_and]
              split
              · rfl
              · dsimp only
                omega

theorem transactionCount_eq : transactionCount src portfolios =
    manualCount src portfolios + sumOnce [] (keyTotals portfolios) := by
  unfold transactionCount
  rw [transactionCount_foldl]
  exact congrArg (· + _) (Nat.zero_add _)

theorem manualCount_perm {ys : List PortfolioWithRelations} (h : ys.Perm portfolios) :
    manualCount src ys = manualCount src portfolios :=
  ((h.filter _).map _).sum_eq

end

/-! ## Each wallet once -/

/-- Every wallet with a total counts one of its totals, once, beside the manual portfolios; and the
order of the portfolios does not matter. -/
def CountsOnce (src : Sources) (portfolios : List PortfolioWithRelations) : Prop :=
  (∃ total : Wallet → ℕ,
      (∀ w ∈ (chainTotals portfolios).map Prod.fst, (w, total w) ∈ chainTotals portfolios) ∧
        transactionCount src portfolios = manualCount src portfolios +
          ∑ w ∈ ((chainTotals portfolios).map Prod.fst).toFinset, total w) ∧
    ∀ ys, ys.Perm portfolios → transactionCount src ys = transactionCount src portfolios

/-- Connected portfolios with the same address in lower case have the same total, which is zero when
their wallets differ. -/
def OneTotalPerAddress (portfolios : List PortfolioWithRelations) : Prop :=
  ∀ x ∈ chainTotals portfolios, ∀ y ∈ chainTotals portfolios, x.1.key = y.1.key →
    x.2 = y.2 ∧ (x.1 = y.1 ∨ x.2 = 0)

section

variable {src : Sources} {portfolios : List PortfolioWithRelations}

theorem consistent_keyTotals_iff : Consistent (keyTotals portfolios) ↔
    ∀ x ∈ chainTotals portfolios, ∀ y ∈ chainTotals portfolios, x.1.key = y.1.key →
      x.2 = y.2 := by
  unfold Consistent keyTotals
  simp only [List.mem_map, forall_exists_index, and_imp, forall_apply_eq_imp_iff₂]

/-- Portfolios whose wallets look the same have one total when the order does not matter. -/
theorem consistent_of_perm
    (h : ∀ ys, ys.Perm portfolios → transactionCount src ys = transactionCount src portfolios) :
    Consistent (keyTotals portfolios) := by
  classical
  rw [consistent_keyTotals_iff]
  intro x hx y hy hkey
  obtain ⟨p, hp, hpx⟩ := List.mem_filterMap.mp hx
  obtain ⟨q, hq, hqy⟩ := List.mem_filterMap.mp hy
  by_cases hne : p = q
  · subst hne
    rw [Option.some.inj (hpx.symm.trans hqy)]
  -- The two portfolios in front, in either order.
  have hq' : q ∈ portfolios.erase p := (List.mem_erase_of_ne (Ne.symm hne)).mpr hq
  have hpq : (p :: q :: (portfolios.erase p).erase q).Perm portfolios :=
    ((List.perm_cons_erase hq').symm.cons p).trans (List.perm_cons_erase hp).symm
  have hqp := (List.Perm.swap p q ((portfolios.erase p).erase q)).trans hpq
  have hcount := (h _ hpq).trans (h _ hqp).symm
  have hmanual := @manualCount_perm src _ _
    (List.Perm.swap p q ((portfolios.erase p).erase q))
  have hkeys : ∀ (a b : PortfolioWithRelations) (u v : Wallet × ℕ), chainTotal a = some u →
      chainTotal b = some v → ∀ rest, keyTotals (a :: b :: rest) =
        (u.1.key, u.2) :: (v.1.key, v.2) :: keyTotals rest := by
    intro a b u v ha hb rest
    unfold keyTotals chainTotals
    rw [List.filterMap_cons_some ha, List.filterMap_cons_some hb]
    rfl
  rw [transactionCount_eq, transactionCount_eq, hmanual, hkeys p q x y hpx hqy,
    hkeys q p y x hqy hpx, hkey, sumOnce_pair, sumOnce_pair] at hcount
  omega

/-- The keys of the wallets. -/
theorem toFinset_keyTotals : ((keyTotals portfolios).map Prod.fst).toFinset =
    ((chainTotals portfolios).map Prod.fst).toFinset.image Wallet.key := by
  unfold keyTotals
  ext k
  simp

theorem transactionCount_of_consistent (h : Consistent (keyTotals portfolios)) :
    transactionCount src portfolios = manualCount src portfolios +
      ∑ k ∈ ((chainTotals portfolios).map Prod.fst).toFinset.image Wallet.key,
        amountOf (keyTotals portfolios) k := by
  rw [transactionCount_eq, h.sumOnce_eq, toFinset_keyTotals]

theorem total_eq_amountOf (h : Consistent (keyTotals portfolios)) {x : Wallet × ℕ}
    (hx : x ∈ chainTotals portfolios) : x.2 = amountOf (keyTotals portfolios) x.1.key :=
  h.eq_amountOf (x.1.key, x.2) (List.mem_map.mpr ⟨x, hx, rfl⟩)

/-- For every list of portfolios in any order, the count is that of the manual portfolios and of
each wallet once exactly when wallets that look the same in lower case have one total, and only
zeros where they differ. -/
theorem countsOnce_iff : CountsOnce src portfolios ↔ OneTotalPerAddress portfolios := by
  have hwallets : ∀ w ∈ ((chainTotals portfolios).map Prod.fst).toFinset,
      ∃ n, (w, n) ∈ chainTotals portfolios := by
    intro w hw
    obtain ⟨x, hx, rfl⟩ := List.mem_map.mp (List.mem_toFinset.mp hw)
    exact ⟨x.2, hx⟩
  constructor
  · rintro ⟨⟨total, htotal, hcount⟩, hperm⟩ x hx y hy hkey
    have hone := consistent_of_perm hperm
    rw [transactionCount_of_consistent hone, Nat.add_left_cancel_iff] at hcount
    have hamounts : ∑ w ∈ ((chainTotals portfolios).map Prod.fst).toFinset, total w =
        ∑ w ∈ ((chainTotals portfolios).map Prod.fst).toFinset,
          amountOf (keyTotals portfolios) w.key :=
      Finset.sum_congr rfl fun w hw =>
        total_eq_amountOf hone (htotal w (List.mem_toFinset.mp hw))
    rw [hamounts] at hcount
    have hmem : ∀ z ∈ chainTotals portfolios,
        z.1 ∈ ((chainTotals portfolios).map Prod.fst).toFinset :=
      fun z hz => List.mem_toFinset.mpr (List.mem_map_of_mem hz)
    refine ⟨consistent_keyTotals_iff.mp hone x hx y hy hkey, ?_⟩
    rw [total_eq_amountOf hone hx]
    exact (sum_image_eq_iff _ _ _).mp hcount x.1 (hmem x hx) y.1 (hmem y hy) hkey
  · intro hone
    have hconsistent : Consistent (keyTotals portfolios) :=
      consistent_keyTotals_iff.mpr fun x hx y hy hkey => (hone x hx y hy hkey).1
    have hshared : ∀ v ∈ ((chainTotals portfolios).map Prod.fst).toFinset,
        ∀ w ∈ ((chainTotals portfolios).map Prod.fst).toFinset, v.key = w.key →
          v = w ∨ amountOf (keyTotals portfolios) v.key = 0 := by
      intro v hv w hw hkey
      obtain ⟨n, hn⟩ := hwallets v hv
      obtain ⟨m, hm⟩ := hwallets w hw
      rw [← total_eq_amountOf hconsistent hn]
      exact (hone _ hn _ hm hkey).2
    refine ⟨⟨fun w => amountOf (keyTotals portfolios) w.key, fun w hw => ?_, ?_⟩, fun ys hys => ?_⟩
    · obtain ⟨n, hn⟩ := hwallets w (List.mem_toFinset.mpr hw)
      have hamount : n = amountOf (keyTotals portfolios) w.key := total_eq_amountOf hconsistent hn
      show (w, amountOf (keyTotals portfolios) w.key) ∈ chainTotals portfolios
      rw [← hamount]
      exact hn
    · rw [transactionCount_of_consistent hconsistent, (sum_image_eq_iff _ _ _).mpr hshared]
    · rw [transactionCount_eq, transactionCount_eq, manualCount_perm hys]
      exact congrArg _ (hconsistent.sumOnce_perm ((hys.filterMap _).map _))

end

/-! ### One address on two chains -/

/-- Every wallet counts once, in any order. -/
def AlwaysOnce : Prop :=
  ∀ (src : Sources) (portfolios : List PortfolioWithRelations), CountsOnce src portfolios

def address : String := "0x52908400098527886e0f7030069857d2e4169ee7"

/-- A portfolio of the address on a chain. -/
def connectedOn (id chainId : ℕ) (chainName : String) (total : ℕ) : PortfolioWithRelations where
  id := id
  userId := 1
  type := .connected
  walletAddress := some address
  chainId := some chainId
  name := chainName
  chainName := some chainName
  createdAt := 0
  externalTxCount := some total
  wallet _ := ⟨by decide +kernel, rfl⟩

def twoChains : List PortfolioWithRelations :=
  [connectedOn 1 1 "Ethereum" 100, connectedOn 2 137 "Polygon" 40]

def noSources : Sources where
  db := ⟨SerialTable.empty, SerialTable.empty, Table.empty, SerialTable.empty⟩
  tick _ := none
  findSnapshotNearDaysAgo _ _ := none
  toLowerCase := String.toLower
  localeLe a b := a ≤ b

/-- The two totals are 100 and 40, and 100 transactions are counted. -/
theorem not_alwaysOnce : ¬ AlwaysOnce := by
  intro halways
  obtain ⟨⟨total, htotal, hcount⟩, -⟩ := halways noSources twoChains
  have htotals : chainTotals twoChains =
      [((some address, some 1), 100), ((some address, some 137), 40)] := rfl
  have hmanual : manualCount noSources twoChains = 0 := rfl
  have hkeys : keyTotals twoChains = [(address.toLower, 100), (address.toLower, 40)] := rfl
  have hcounted : transactionCount noSources twoChains = 100 := by
    rw [transactionCount_eq, hmanual, hkeys, sumOnce_pair]
    rfl
  rw [htotals] at htotal hcount
  have hfirst := htotal (some address, some 1) (by simp)
  have hsecond := htotal (some address, some 137) (by simp)
  simp only [List.mem_cons, Prod.mk.injEq, Option.some.injEq, true_and, List.not_mem_nil,
    or_false] at hfirst hsecond
  rw [hcounted, hmanual] at hcount
  simp at hcount
  omega

end Neonfi.Overview
