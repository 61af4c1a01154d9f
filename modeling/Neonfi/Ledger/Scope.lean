import Neonfi.Ledger.History

/-!
# What a statement can reach

`Quiet S` says that a piece of a write transaction stays inside the portfolios of `S`: the rows
of every other portfolio, the owners, the catalog and the legs of every transfer are as they
were, and a reference that led somewhere still does.
-/

namespace Neonfi.Ledger

open Lib

namespace Db

variable (db : Db)

def owner? (portfolioId : ℕ) : Option ℕ := (db.findPortfolioById portfolioId).map Portfolio.userId

/-- All that the ledger keeps of a portfolio. -/
def view (portfolioId : ℕ) : Option Portfolio × List Asset × List Transaction :=
  (db.findPortfolioById portfolioId, assetsOf db portfolioId,
    db.transactions.rows.filter fun t => t.portfolioId = portfolioId)

/-- The rows that carry the id of one transfer. -/
def legs (groupId : String) : List Transaction :=
  db.transactions.rows.filter fun t => t.transferGroupId = some groupId

end Db

/-- Assets and transactions name portfolios that exist, and assets name tokens that do. -/
structure References (db : Db) : Prop extends ForeignKeys db where
  tokens : ∀ a ∈ db.assets.rows, (db.findTokenById a.tokenId).isSome

theorem isSome_owner {db : Db} {p : ℕ} :
    (db.owner? p).isSome = (db.findPortfolioById p).isSome := Option.isSome_map

/-- A rewrite that moves no row in or out of a selection, and changes none in it, leaves the
selection as it is. -/
theorem filter_map_of_fixed {α : Type} {f : α → α} {keep : α → Bool} {xs : List α}
    (hkeep : ∀ x ∈ xs, keep (f x) = keep x) (hfixed : ∀ x ∈ xs, keep x = true → f x = x) :
    (xs.map f).filter keep = xs.filter keep := by
  induction xs with
  | nil => rfl
  | cons x xs ih =>
      have htail := ih (fun y hy => hkeep y (List.mem_cons_of_mem x hy))
        fun y hy => hfixed y (List.mem_cons_of_mem x hy)
      rw [List.map_cons, List.filter_cons, List.filter_cons, hkeep x List.mem_cons_self, htail]
      split
      · next hx => rw [hfixed x List.mem_cons_self hx]
      · rfl

theorem filter_filter_of_kept {α : Type} {keep p : α → Bool} {xs : List α}
    (h : ∀ x ∈ xs, p x = true → keep x = true) : (xs.filter keep).filter p = xs.filter p := by
  rw [List.filter_filter]
  apply List.filter_congr
  intro x hx
  cases hp : p x with
  | false => simp
  | true => simp [h x hx hp]

/-- What a piece of a write transaction leaves as it was. -/
structure Quiet (S : Set ℕ) (db db' : Db) : Prop where
  tokens : db'.tokens = db.tokens
  next : db'.portfolios.next = db.portfolios.next
  owners : ∀ p, db'.owner? p = db.owner? p
  view : ∀ p ∉ S, db'.view p = db.view p
  legs : ∀ groupId, db'.legs groupId = db.legs groupId
  references : (∀ p ∈ S, (db.owner? p).isSome) → References db → References db'

namespace Quiet

variable {S : Set ℕ} {N : Numeric} {db db₁ db' : Db}

theorem refl : Quiet S db db :=
  ⟨rfl, rfl, fun _ => rfl, fun _ _ => rfl, fun _ => rfl, fun _ h => h⟩

theorem trans (h : Quiet S db db₁) (h' : Quiet S db₁ db') : Quiet S db db' where
  tokens := h'.tokens.trans h.tokens
  next := h'.next.trans h.next
  owners p := (h'.owners p).trans (h.owners p)
  view p hp := (h'.view p hp).trans (h.view p hp)
  legs groupId := (h'.legs groupId).trans (h.legs groupId)
  references hexist hrefs :=
    h'.references (fun p hp => by rw [h.owners p]; exact hexist p hp) (h.references hexist hrefs)

theorem commit (h : Quiet S db db₁) (hcommit : db₁.commit N = .ok db') : Quiet S db db' := by
  rw [(commit_ok hcommit).1]
  exact h

/-! ## Assets -/

theorem createAsset {a : Asset} (hp : a.portfolioId ∈ S)
    (htoken : (db.findTokenById a.tokenId).isSome) (h : db.createAsset a = .ok db') :
    Quiet S db db' := by
  obtain ⟨assets, rfl, hrows, -⟩ := createAsset_ok h
  refine ⟨rfl, rfl, fun _ => rfl, fun p hne => ?_, fun _ => rfl, fun hexist hrefs => ?_⟩
  · have hother : ¬ a.portfolioId = p := fun heq => hne (heq ▸ hp)
    unfold Db.view assetsOf
    rw [show ({ db with assets } : Db).assets.rows = assets.rows from rfl, hrows,
      List.filter_append, List.filter_cons_of_neg (by simpa using hother), List.filter_nil,
      List.append_nil]
    rfl
  · have hmem : ∀ b ∈ assets.rows, b ∈ db.assets.rows ∨ b = a := by
      intro b hb
      rw [hrows] at hb
      exact (List.mem_append.mp hb).imp_right List.mem_singleton.mp
    refine ⟨⟨fun b hb => ?_, hrefs.transactions⟩, fun b hb => ?_⟩
    · rcases hmem b hb with hb | rfl
      · exact hrefs.assets b hb
      · rw [← isSome_owner]
        exact hexist _ hp
    · rcases hmem b hb with hb | rfl
      · exact hrefs.tokens b hb
      · exact htoken

theorem deleteAsset {key : ℕ × ℕ} (hp : key.1 ∈ S) : Quiet S db (db.deleteAsset key) where
  tokens := rfl
  next := rfl
  owners _ := rfl
  view p hne := by
    unfold Db.view assetsOf Db.deleteAsset
    rw [Table.rows_filter, filter_filter_of_kept]
    · rfl
    · intro a _ hap
      have hap : a.portfolioId = p := of_decide_eq_true hap
      refine decide_eq_true fun hkey => hne ?_
      rw [← hap, show a.portfolioId = key.1 from congrArg Prod.fst hkey]
      exact hp
  legs _ := rfl
  references _ hrefs :=
    ⟨⟨fun a ha => hrefs.assets a (List.mem_of_mem_filter ha), hrefs.transactions⟩,
      fun a ha => hrefs.tokens a (List.mem_of_mem_filter ha)⟩

theorem updateAssetRow {p tokenId : ℕ} {f : Asset → Asset} {hf : ∀ a, (f a).key = a.key}
    (hp : p ∈ S) : Quiet S db (db.updateAssetRow p tokenId f hf) := by
  have hkeys : ∀ a : Asset,
      (if a.key = (p, tokenId) then f a else a).key = a.key := fun a => by split <;> simp [hf]
  have hids : ∀ a : Asset, (if a.key = (p, tokenId) then f a else a).portfolioId = a.portfolioId :=
    fun a => congrArg Prod.fst (hkeys a)
  refine ⟨rfl, rfl, fun _ => rfl, fun q hne => ?_, fun _ => rfl, fun _ hrefs => ?_⟩
  · unfold Db.view assetsOf Db.updateAssetRow
    rw [Table.rows_modify, filter_map_of_fixed]
    · rfl
    · intro a _
      rw [hids a]
    · intro a _ hap
      have hap : a.portfolioId = q := of_decide_eq_true hap
      refine if_neg fun hkey => hne ?_
      rw [← hap, show a.portfolioId = p from congrArg Prod.fst hkey]
      exact hp
  · refine ⟨⟨fun b hb => ?_, hrefs.transactions⟩, fun b hb => ?_⟩
    · obtain ⟨a, ha, rfl⟩ := List.mem_map.mp hb
      rw [hids a]
      exact hrefs.assets a ha
    · obtain ⟨a, ha, rfl⟩ := List.mem_map.mp hb
      have htoken : (if a.key = (p, tokenId) then f a else a).tokenId = a.tokenId :=
        congrArg Prod.snd (hkeys a)
      rw [htoken]
      exact hrefs.tokens a ha

/-! ## Portfolios -/

theorem setNetDeposit {p : ℕ} {netDeposit : ℚ} (hp : p ∈ S) :
    Quiet S db (db.setNetDeposit p netDeposit) := by
  have hfind : ∀ q, (db.setNetDeposit p netDeposit).findPortfolioById q =
      (db.findPortfolioById q).map fun r => if r.id = p then { r with netDeposit } else r :=
    fun q => @SerialTable.find?_modify _ _ _ _ db.portfolios _
      (fun _ => by split <;> rfl) (fun _ => rfl) q
  have howners : ∀ q, (db.setNetDeposit p netDeposit).owner? q = db.owner? q := by
    intro q
    unfold Db.owner?
    rw [hfind, Option.map_map]
    congr 1
    funext r
    rw [Function.comp_apply]
    split <;> rfl
  refine ⟨rfl, rfl, howners, fun q hne => ?_, fun _ => rfl, fun _ hrefs => ?_⟩
  · unfold Db.view
    rw [hfind]
    cases hq : db.findPortfolioById q with
    | none => rfl
    | some r =>
        have hother : ¬ r.id = p := fun hid =>
          hne ((SerialTable.find?_eq_some_iff.mp hq).2 ▸ hid ▸ hp)
        rw [Option.map_some, if_neg hother]
        rfl
  · have hsome : ∀ q, (db.findPortfolioById q).isSome →
        ((db.setNetDeposit p netDeposit).findPortfolioById q).isSome := by
      intro q hq
      rw [← isSome_owner, howners, isSome_owner]
      exact hq
    exact ⟨⟨fun a ha => hsome _ (hrefs.assets a ha),
      fun t ht => hsome _ (hrefs.transactions t ht)⟩, hrefs.tokens⟩

/-! ## Transactions -/

theorem createTransactionRow {data : TransactionData} (hp : data.portfolioId ∈ S)
    (hgroup : data.transferGroupId = none) (h : db.createTransactionRow data = .ok db') :
    Quiet S db db' := by
  obtain ⟨transactions, rfl, hrows⟩ := createTransactionRow_ok h
  have hview : ∀ keep : Transaction → Bool, keep ⟨data, db.transactions.next⟩ = false →
      transactions.rows.filter keep = db.transactions.rows.filter keep := by
    intro keep hnew
    rw [hrows, List.filter_append, List.filter_cons_of_neg (by simpa using hnew),
      List.filter_nil, List.append_nil]
  refine ⟨rfl, rfl, fun _ => rfl, fun p hne => ?_, fun groupId => ?_, fun hexist hrefs => ?_⟩
  · have hother : ¬ data.portfolioId = p := fun heq => hne (heq ▸ hp)
    exact congrArg (fun ts => (db.findPortfolioById p, assetsOf db p, ts))
      (hview _ (decide_eq_false hother))
  · apply hview
    simp [hgroup]
  · refine ⟨⟨hrefs.assets, fun t ht => ?_⟩, hrefs.tokens⟩
    change t ∈ transactions.rows at ht
    rw [hrows] at ht
    rcases List.mem_append.mp ht with ht | ht
    · exact hrefs.transactions t ht
    · rw [List.mem_singleton.mp ht]
      exact (isSome_owner ▸ hexist _ hp : (db.findPortfolioById data.portfolioId).isSome)

/-- A row that a request may rewrite or drop by itself: one of its portfolios, of no transfer. -/
def Single (S : Set ℕ) (txId : ℕ) (db : Db) : Prop :=
  ∀ t ∈ db.transactions.rows, t.id = txId → t.portfolioId ∈ S ∧ t.transferGroupId = none

theorem updateTransactionRow {txId : ℕ} {f : Transaction → Transaction}
    {hid : ∀ t, (f t).id = t.id} {hkey : ∀ t, (f t).hashKey = t.hashKey}
    (hsingle : Single S txId db) (hportfolio : ∀ t, (f t).portfolioId = t.portfolioId)
    (hgroup : ∀ t, (f t).transferGroupId = t.transferGroupId) :
    Quiet S db (db.updateTransactionRow txId f hid hkey) := by
  have hsame : ∀ t : Transaction,
      (if t.id = txId then f t else t).portfolioId = t.portfolioId ∧
        (if t.id = txId then f t else t).transferGroupId = t.transferGroupId := by
    intro t
    split
    · exact ⟨hportfolio t, hgroup t⟩
    · exact ⟨rfl, rfl⟩
  refine ⟨rfl, rfl, fun _ => rfl, fun p hne => ?_, fun groupId => ?_, fun _ hrefs => ?_⟩
  · refine congrArg (fun ts => (db.findPortfolioById p, assetsOf db p, ts)) ?_
    apply filter_map_of_fixed
    · intro t _
      rw [(hsame t).1]
    · intro t ht htp
      have htp : t.portfolioId = p := of_decide_eq_true htp
      exact if_neg fun htx => hne (htp ▸ (hsingle t ht htx).1)
  · apply filter_map_of_fixed
    · intro t _
      rw [(hsame t).2]
    · intro t ht htg
      have htg : t.transferGroupId = some groupId := of_decide_eq_true htg
      refine if_neg fun htx => ?_
      rw [(hsingle t ht htx).2] at htg
      cases htg
  · refine ⟨⟨hrefs.assets, fun t ht => ?_⟩, hrefs.tokens⟩
    obtain ⟨s, hs, rfl⟩ := List.mem_map.mp ht
    rw [(hsame s).1]
    exact hrefs.transactions s hs

theorem deleteTransactionRow {txId : ℕ} (hsingle : Single S txId db) :
    Quiet S db (db.deleteTransactionRow txId) := by
  refine ⟨rfl, rfl, fun _ => rfl, fun p hne => ?_, fun groupId => ?_, fun _ hrefs => ?_⟩
  · refine congrArg (fun ts => (db.findPortfolioById p, assetsOf db p, ts)) ?_
    apply filter_filter_of_kept
    intro t ht htp
    have htp : t.portfolioId = p := of_decide_eq_true htp
    exact decide_eq_true fun htx => hne (htp ▸ (hsingle t ht htx).1)
  · apply filter_filter_of_kept
    intro t ht htg
    have htg : t.transferGroupId = some groupId := of_decide_eq_true htg
    refine decide_eq_true fun htx => ?_
    rw [(hsingle t ht htx).2] at htg
    cases htg
  · exact ⟨⟨hrefs.assets, fun t ht => hrefs.transactions t (List.mem_of_mem_filter ht)⟩,
      hrefs.tokens⟩

/-! ## Recalculations -/

theorem recalcAsset {p tokenId : ℕ} (hp : p ∈ S) :
    Quiet S db (recalcAssetBalance N p tokenId db) := by
  unfold recalcAssetBalance
  split
  · exact refl
  · split
    · exact refl
    · exact updateAssetRow hp

theorem recalcTotal {p : ℕ} (hp : p ∈ S) : Quiet S db (recalcPortfolioNetDeposit N p db) :=
  setNetDeposit hp

theorem foldl {α : Type} {f : Db → α → Db} {xs : List α}
    (h : ∀ x ∈ xs, ∀ db, Quiet S db (f db x)) : Quiet S db (xs.foldl f db) := by
  induction xs generalizing db with
  | nil => exact refl
  | cons x xs ih =>
      exact (h x List.mem_cons_self db).trans (ih fun y hy => h y (List.mem_cons_of_mem x hy))

theorem recalcTargets {targets : List (ℕ × ℕ)} {ids : List ℕ}
    (htargets : ∀ target ∈ targets, target.1 ∈ S) (hids : ∀ id ∈ ids, id ∈ S) :
    Quiet S db (Ledger.recalcTargets N targets ids db) :=
  (foldl fun target ht _ => recalcAsset (htargets target ht)).trans
    (foldl fun id hid _ => recalcTotal (hids id hid))

theorem recalcPatched {p : ℕ} {old new : Option ℕ} (hp : p ∈ S) :
    Quiet S db (Ledger.recalcPatched N p old new db) := by
  refine trans ?_ (recalcTotal hp)
  cases old with
  | none =>
      cases new with
      | none => exact refl
      | some n => exact recalcAsset hp
  | some o =>
      cases new with
      | none => exact recalcAsset hp
      | some n =>
          dsimp only
          split
          · exact recalcAsset hp
          · exact (recalcAsset hp).trans (recalcAsset hp)

theorem createIfNeeded {needed : Bool} {p tokenId : ℕ} (hp : p ∈ S)
    (htoken : (db.findTokenById tokenId).isSome)
    (h : Ledger.createIfNeeded needed p tokenId db = .ok db') : Quiet S db db' := by
  rcases createIfNeeded_ok h with rfl | hcreate
  · exact refl
  · exact createAsset hp htoken hcreate

end Quiet

end Neonfi.Ledger
